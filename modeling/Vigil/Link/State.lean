/-! The connection to the daemon as its users see it. -/
namespace Vigil.Link

inductive State where
  | never
  | connected
  /-- There was a connection, and it is gone. -/
  | lost
deriving DecidableEq, Repr

end Vigil.Link
