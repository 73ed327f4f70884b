import Vigil.Daemon.Ensure
import Vigil.Daemon.Watch
import Vigil.Rehearsal.Turns
import Vigil.Rehearsal.World
/-! A supervisor on a rehearsed machine, with any number of callers and watchers. -/
namespace Vigil.Rehearsal

open Daemon

structure Caller where
  stage : Ensure := .called
  /-- When the call is cancelled, if it is. -/
  cancelAt : Option Nat := none

structure Watcher where
  stage : Watch := .called
  cancelled : Bool := false

structure Supervised where
  supervisor : Supervisor World
  state : Supervision World
  callers : List Caller := []
  watchers : List Watcher := []

namespace Supervised

inductive Task where
  | world
  | caller (n : Nat)
  | watcher (n : Nat)
deriving DecidableEq, Repr

def now (s : Supervised) : Nat := s.state.now

def isCancelled (s : Supervised) (c : Caller) : Bool := c.cancelAt.any fun t => decide (t ≤ s.now)

def isReady (s : Supervised) : Task → Bool
  | .world => s.state.world.isReady
  | .caller n => s.callers[n]?.any fun c => c.stage.isReady s.now (s.isCancelled c)
  | .watcher n => s.watchers[n]?.any fun w => w.stage.isReady s.now w.cancelled

def turn (t : Task) (s : Supervised) : Supervised :=
  match t with
  | .world => { s with state := { s.state with world := s.state.world.turn } }
  | .caller n =>
    match s.callers[n]? with
    | none => s
    | some c =>
      let (stage, state) := c.stage.turn s.supervisor s.state (s.isCancelled c)
      { s with state, callers := s.callers.set n { c with stage } }
  | .watcher n =>
    match s.watchers[n]? with
    | none => s
    | some w =>
      let (stage, state) := w.stage.turn s.supervisor s.state w.cancelled
      { s with state, watchers := s.watchers.set n { w with stage } }

/-- What a caller was answered, and when. -/
def answer? (s : Supervised) (n : Nat) : Option (Nat × Except StartError Record) :=
  match s.callers[n]? with
  | some ⟨.done at_ result, _⟩ => some (at_, result)
  | _ => none

def moveTo (t : Nat) (s : Supervised) : Supervised :=
  { s with state := { s.state with now := t, world := { s.state.world with now := t } } }

def wakes (s : Supervised) : List Nat :=
  s.state.world.ahead.map (·.1) ++
    s.callers.flatMap (fun c => c.stage.due?.toList ++ c.cancelAt.toList) ++
    s.watchers.flatMap fun w => w.stage.due?.toList

def cast : Cast Supervised Task where
  tasks s := .world :: (List.range s.callers.length).map .caller ++
    (List.range s.watchers.length).map .watcher
  isReady := isReady
  turn := turn
  now := now
  moveTo := moveTo
  wakes := wakes

end Supervised

end Vigil.Rehearsal
