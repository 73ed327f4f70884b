import Vigil.Daemon.Supervision
/-! A machine to rehearse on: a record, living processes, and what the next launches will do. -/
namespace Vigil.Rehearsal

/-- A record that turns up, and whether its process lives. -/
structure Arrival where
  record : Record
  alive : Bool := true
deriving DecidableEq, Repr

inductive Happening where
  | appear (d : Arrival) (diesAfter : Option Nat) (graceful : Bool)
  | vanish (pid : UInt32) (graceful : Bool)
  /-- The record goes, and its process stays. -/
  | withdraw
deriving DecidableEq, Repr

/-- What a launched daemon does. -/
inductive Plan where
  | fail (reason : String)
  /-- What happens how long after the launch, in nanoseconds. -/
  | steps (l : List (Nat × Happening))
deriving DecidableEq, Repr

namespace Plan

def nothing : Plan := steps []

/-- Leaves its record after a while and ends some time later, if at all; a graceful end takes the
record away. -/
def publish (d : Arrival) (after : Nat) (diesAfter : Option Nat) (graceful : Bool) : Plan :=
  steps [(after, .appear d diesAfter graceful)]

end Plan

structure World where
  now : Nat := 0
  record : Option Record := none
  alive : List UInt32 := []
  binary : Option String := some "/opt/watchfired"
  plans : List Plan := []
  /-- What is going to happen, and when. -/
  ahead : List (Nat × Happening) := []

namespace World

def publish (w : World) (d : Arrival) : World :=
  { w with
    record := some d.record
    alive := if d.alive then d.record.pid :: w.alive else w.alive }

def kill (w : World) (pid : UInt32) : World := { w with alive := w.alive.filter (· != pid) }

def live (w : World) : Option Record := w.record.filter fun r => w.alive.contains r.pid

def launch (w : World) (_ : String) : World × Option String :=
  match w.plans with
  | [] => (w, none)
  | .fail reason :: plans => ({ w with plans }, some reason)
  | .steps l :: plans =>
    ({ w with plans, ahead := w.ahead ++ l.map fun h => (w.now + h.1, h.2) }, none)

/-- A process that ends gracefully takes the record away if it is still its own. -/
def vanish (w : World) (pid : UInt32) (graceful : Bool) : World :=
  let w := w.kill pid
  if graceful && w.record.any (·.pid == pid) then { w with record := none } else w

def happen (w : World) : Happening → World
  | .appear d diesAfter graceful =>
    let w := w.publish d
    match diesAfter with
    | none => w
    | some after => { w with ahead := w.ahead ++ [(w.now + after, .vanish d.record.pid graceful)] }
  | .vanish pid graceful => w.vanish pid graceful
  | .withdraw => { w with record := none }

def isReady (w : World) : Bool := w.ahead.any fun p => decide (p.1 ≤ w.now)

/-- What is due happens, the earliest first. -/
def turn (w : World) : World :=
  match (w.ahead.map (·.1)).min? with
  | none => w
  | some due =>
    match w.ahead.find? (·.1 == due) with
    | none => w
    | some (_, h) => { w with ahead := w.ahead.eraseP (·.1 == due) }.happen h

def surroundings : Daemon.Surroundings World where
  isAlive w pid := w.alive.contains pid
  live := live
  left := record
  binaryName := "watchfired"
  find := binary
  launch := launch

end World

end Vigil.Rehearsal
