/-! Tasks that take turns on one thread, and a clock that moves on when all of them wait. -/
namespace Vigil.Rehearsal

/-- A system of state `S` whose tasks have names `T`. -/
structure Cast (S T : Type) where
  /-- The tasks in the order they were started. -/
  tasks : S → List T
  isReady : S → T → Bool
  turn : T → S → S
  now : S → Nat
  moveTo : Nat → S → S
  /-- The instants at which tasks want to be woken. -/
  wakes : S → List Nat

/-- A system and the tasks that are ready, in the order they became so. -/
structure Stage (S T : Type) where
  state : S
  queue : List T := []

namespace Cast

variable {S T : Type} [DecidableEq T]

/-- Tasks that are ready keep their places; those that became so come behind. -/
def refresh (c : Cast S T) (g : Stage S T) : Stage S T :=
  let queue := g.queue.filter (c.isReady g.state)
  let woken := (c.tasks g.state).filter fun t => c.isReady g.state t && !queue.contains t
  { g with queue := queue ++ woken }

/-- Lets the first task that is ready have a turn; it keeps the floor while it can go on. -/
def step? (c : Cast S T) (g : Stage S T) : Option (Stage S T) :=
  let g := c.refresh g
  match g.queue with
  | [] => none
  | t :: _ => some { g with state := c.turn t g.state }

/-- Gives out turns until nobody is ready, or so many of them. -/
def settleIn (c : Cast S T) : Nat → Stage S T → Stage S T
  | 0, g => g
  | n + 1, g =>
    match c.step? g with
    | none => { g with queue := [] }
    | some g => c.settleIn n g

/-- More turns than this at one instant go round in a circle. -/
def turnLimit : Nat := 1000000

def settle (c : Cast S T) (g : Stage S T) : Stage S T := c.settleIn turnLimit g

/-- The next instant up to `target` at which a task wants to be woken. -/
def nextWake? (c : Cast S T) (target : Nat) (s : S) : Option Nat :=
  ((c.wakes s).filter fun t => decide (c.now s < t ∧ t ≤ target)).min?

/-- Lets time pass up to `target` or until `stop` holds of a settled state. The first argument is
how many instants there may be. -/
def passIn (c : Cast S T) (stop : S → Bool) (target : Nat) : Nat → Stage S T → Stage S T
  | 0, g => g
  | n + 1, g =>
    let g := c.settle g
    if stop g.state then g
    else match c.nextWake? target g.state with
      | some t => c.passIn stop target n { g with state := c.moveTo t g.state }
      | none =>
        if c.now g.state < target then c.settle { g with state := c.moveTo target g.state }
        else g

def passUntil (c : Cast S T) (stop : S → Bool) (target : Nat) (g : Stage S T) : Stage S T :=
  c.passIn stop target (target - c.now g.state + 1) g

def passTo (c : Cast S T) (target : Nat) (g : Stage S T) : Stage S T := c.passUntil (fun _ => false) target g

end Cast

end Vigil.Rehearsal
