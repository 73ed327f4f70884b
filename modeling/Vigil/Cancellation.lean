/-! Cancellation tokens. A token and its clones are one family, which is cancelled as a whole and
for good. -/
namespace Vigil

structure Tokens where
  /-- The family of each token, in the order they were made. -/
  families : List Nat := [0]
  /-- Whether each family is cancelled. -/
  flags : List Bool := [false]
  /-- For each waiter its family and whether it has been woken. -/
  waiters : List (Nat × Bool) := []
deriving DecidableEq, Repr

namespace Tokens

def familyOf (ts : Tokens) (token : Nat) : Nat := ts.families.getD token 0

def isCancelled (ts : Tokens) (token : Nat) : Bool := ts.flags.getD (ts.familyOf token) false

def new (ts : Tokens) : Tokens :=
  { ts with families := ts.families ++ [ts.flags.length], flags := ts.flags ++ [false] }

def clone (ts : Tokens) (token : Nat) : Tokens :=
  { ts with families := ts.families ++ [ts.familyOf token] }

/-- Wakes everybody who waits on the token's family. -/
def cancel (ts : Tokens) (token : Nat) : Tokens :=
  let family := ts.familyOf token
  { ts with
    flags := ts.flags.set family true
    waiters := ts.waiters.map fun w => if w.1 = family then (w.1, true) else w }

/-- A waiter that comes after the cancellation does not sleep. -/
def wait (ts : Tokens) (token : Nat) : Tokens :=
  { ts with waiters := ts.waiters ++ [(ts.familyOf token, ts.isCancelled token)] }

end Tokens

end Vigil
