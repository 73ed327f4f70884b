import Vigil.Proofs.Daemon.Acts

/-! Any number of callers and watches that share a supervisor and take turns in any order. -/
namespace Vigil.Daemon

variable {σ : Type}

/-- Somebody who uses a supervisor. -/
inductive Worker where
  | caller (stage : Ensure)
  | watcher (stage : Watch)

namespace Worker

def turn (v : Supervisor σ) (s : Supervision σ) (cancelled : Bool) : Worker → Worker × Supervision σ
  | caller e => let (e, s) := e.turn v s cancelled; (.caller e, s)
  | watcher w => let (w, s) := w.turn v s cancelled; (.watcher w, s)

theorem turn_acts (v : Supervisor σ) (s : Supervision σ) (cancelled : Bool) (w : Worker) :
    Acts v s (w.turn v s cancelled).2 := by
  cases w with
  | caller e => exact .of_routines (.ensureTurn v s cancelled e)
  | watcher w => exact Acts.watchTurn v s cancelled w

end Worker

structure Crew (σ : Type) where
  state : Supervision σ
  workers : List Worker := []

/-- What can happen next: somebody new calls or watches, or somebody has a turn. -/
inductive Move (σ : Type) where
  | call
  | watch
  | turn (n : Nat) (m : Moment σ)

namespace Crew

/-- A new supervisor, which nobody uses yet. -/
def fresh (world : σ) : Crew σ := { state := { world } }

def step (v : Supervisor σ) (c : Crew σ) : Move σ → Crew σ
  | .call => { c with workers := c.workers ++ [.caller .called] }
  | .watch => { c with workers := c.workers ++ [.watcher .called] }
  | .turn n m =>
    match c.workers[n]? with
    | none => c
    | some w =>
      let (w, state) := w.turn v (c.state.meet m) m.cancelled
      { state, workers := c.workers.set n w }

def run (v : Supervisor σ) (c : Crew σ) (moves : List (Move σ)) : Crew σ := moves.foldl (step v) c

variable {v : Supervisor σ}

theorem step_turn_of_none {c : Crew σ} {n : Nat} (h : c.workers[n]? = none) (m : Moment σ) :
    step v c (.turn n m) = c := by
  simp [step, h]

theorem step_turn_of_some {c : Crew σ} {n : Nat} {w : Worker} (h : c.workers[n]? = some w)
    (m : Moment σ) :
    step v c (.turn n m) =
      { state := (w.turn v (c.state.meet m) m.cancelled).2
        workers := c.workers.set n (w.turn v (c.state.meet m) m.cancelled).1 } := by
  simp [step, h]

/-- What acts keep, and what does not hang on the surroundings or the time, holds of the shared
state after any moves. -/
theorem run_invariant {P : Supervision σ → Prop} (hmeet : ∀ s m, P s → P (s.meet m))
    (hact : ∀ s s', Act v s s' → P s → P s') {c : Crew σ} (hc : P c.state)
    (moves : List (Move σ)) : P (run v c moves).state := by
  induction moves generalizing c with
  | nil => exact hc
  | cons move rest ih =>
    refine ih ?_
    cases move with
    | call => exact hc
    | watch => exact hc
    | turn n m =>
      cases hw : c.workers[n]? with
      | none => rwa [step_turn_of_none hw]
      | some w =>
        rw [step_turn_of_some hw]
        exact (w.turn_acts v (c.state.meet m) m.cancelled).invariant hact (hmeet _ m hc)

end Crew

end Vigil.Daemon
