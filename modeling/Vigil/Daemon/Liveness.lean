/-! Whether a process lives, asked without doing anything to it. -/
namespace Vigil.Daemon

/-- What comes of a signal that delivers nothing. -/
inductive Signalled where
  | delivered | forbidden | nobody
deriving DecidableEq, Repr

inductive Liveness where
  | alive
  | notFound
  /-- The process is somebody else's, so it is not the daemon. -/
  | permissionDenied
deriving DecidableEq, Repr

namespace Liveness

/-- Zero and what is negative as a signed number name groups of processes, and nobody is asked. -/
def probe (signal : Nat → Signalled) (pid : UInt32) : Liveness :=
  if pid = 0 ∨ 2147483648 ≤ pid then notFound
  else match signal pid.toNat with
    | .delivered => alive
    | .forbidden => permissionDenied
    | .nobody => notFound

def isAlive (l : Liveness) : Bool := l == alive

end Liveness

end Vigil.Daemon
