import Vigil.Link.Reconnect

/-! A connection that one loop keeps, under every order of what can happen to it: time, calls from
outside or from whoever is told of a connection, turns of the loop and ends of its attempts. -/
namespace Vigil.Link

/-- A loop that sleeps until an instant. -/
def Loop.Sleeps (due : Nat) (l : Loop) : Prop := l = .retrying due ∨ l = .holdingOff due

namespace Reconnect

/-- What anybody may ask for at any time, also from within an attempt. -/
inductive Call where
  | markDisconnected | stop
deriving DecidableEq, Repr

def call (c : Reconnect) : Call → Reconnect
  | .markDisconnected => c.markDisconnected
  | .stop => c.stop

/-- What an attempt brought. A connection that counts is announced, and whoever is told of it makes
calls of his own. -/
def settle (c : Reconnect) (found : Option Record) (calls : List Call) : Reconnect :=
  match found with
  | some r => if c.stopped then c else calls.foldl call (c.connect r)
  | none => c

/-- An attempt has come to an end, and the loop goes on. -/
def conclude (c : Reconnect) (found : Option Record) (calls : List Call) : Reconnect :=
  (c.settle found calls).resume 0

inductive Move where
  | pass (elapsed : Nat)
  | call (k : Call)
  | turn
  /-- The attempt under way ends; with none under way nothing happens. -/
  | conclude (found : Option Record) (calls : List Call)
deriving DecidableEq, Repr

/-- A connection with the loop that keeps it. -/
def start (interval : Nat) : Reconnect := spawn { interval }

def step (c : Reconnect) : Move → Reconnect
  | .pass elapsed => { c with now := c.now + elapsed }
  | .call k => c.call k
  | .turn => c.turn 0
  | .conclude found calls => if c.loops = [.acquiring] then c.conclude found calls else c

def run (c : Reconnect) (moves : List Move) : Reconnect := moves.foldl step c

theorem step_conclude_of_acquiring {c : Reconnect} (hl : c.loops = [.acquiring])
    (found : Option Record) (calls : List Call) :
    c.step (.conclude found calls) = c.conclude found calls := if_pos hl

theorem step_conclude_of_ne {c : Reconnect} (hl : c.loops ≠ [.acquiring]) (found : Option Record)
    (calls : List Call) : c.step (.conclude found calls) = c := if_neg hl

/-- An invariant of single moves is one of runs. -/
theorem run_induction {P : Reconnect → Prop} (hstep : ∀ c move, P c → P (c.step move))
    {c : Reconnect} (hc : P c) (moves : List Move) : P (c.run moves) := by
  induction moves generalizing c with
  | nil => exact hc
  | cons move rest ih => exact ih (hstep c move hc)

/-- The deeds so far, the oldest first. -/
def deeds (c : Reconnect) : List ReconnectDeed := (c.trail.map (·.2)).reverse

variable (c : Reconnect)

/-! ### What each operation changes -/

@[simp] theorem note_deeds (d : ReconnectDeed) : (c.note d).deeds = c.deeds ++ [d] := by
  simp [deeds, note]

@[simp] theorem enter_deeds (s : State) : (c.enter s).deeds = c.deeds ++ [.enter s] :=
  note_deeds _ _

/-- A loss calls the loop that is first in line; with none in line a permit is kept. -/
theorem markDisconnected_of_connected (h : c.state = .connected) :
    c.markDisconnected = { c.enter .lost with
      permit := c.permit || c.waiting.isEmpty
      waiting := c.waiting.tail } := by
  rw [markDisconnected, if_pos h]
  cases hline : c.waiting with
  | nil => simp [notify, enter, note, hline]
  | cons n rest => simp [notify, enter, note, hline]

theorem markDisconnected_of_ne (h : c.state ≠ .connected) : c.markDisconnected = c := if_neg h

@[simp] theorem park_deeds (n : Nat) : (c.park n).deeds = c.deeds := by
  unfold park
  split <;> rfl

@[simp] theorem park_state (n : Nat) : (c.park n).state = c.state := by
  unfold park
  split <;> rfl

@[simp] theorem park_stopped (n : Nat) : (c.park n).stopped = c.stopped := by
  unfold park
  split <;> rfl

@[simp] theorem resume_deeds (n : Nat) : (c.resume n).deeds = c.deeds := by
  unfold resume
  split
  · rfl
  · split
    · exact c.park_deeds n
    · rfl

@[simp] theorem resume_state (n : Nat) : (c.resume n).state = c.state := by
  unfold resume
  split
  · rfl
  · split
    · exact c.park_state n
    · rfl

@[simp] theorem resume_stopped (n : Nat) : (c.resume n).stopped = c.stopped := by
  unfold resume
  split
  · rfl
  · split
    · exact c.park_stopped n
    · rfl

/-! ### Turns -/

section

variable {c}

theorem loopReady_ready (hl : c.loops = [.ready]) : c.loopReady 0 = true := by
  simp [loopReady, hl]

theorem loopReady_acquiring (hl : c.loops = [.acquiring]) : c.loopReady 0 = false := by
  simp [loopReady, hl]

theorem loopReady_finished (hl : c.loops = [.finished]) : c.loopReady 0 = false := by
  simp [loopReady, hl]

theorem loopReady_sleeping {l : Loop} {due : Nat} (hl : c.loops = [l]) (hsleeps : l.Sleeps due) :
    c.loopReady 0 = true ↔ c.stopped = true ∨ due ≤ c.now := by
  rcases hsleeps with rfl | rfl <;> simp [loopReady, hl]

theorem loopReady_parked (hl : c.loops = [.parked]) :
    c.loopReady 0 = true ↔ c.stopped = true ∨ 0 ∉ c.waiting := by
  simp [loopReady, hl]

end

/-- All that a turn of the one loop can come to. -/
inductive Turned (c : Reconnect) : Loop → Reconnect → Prop where
  | idle {l : Loop} (h : c.loopReady 0 = false) : Turned c l c
  | finished {l : Loop} (hready : c.loopReady 0 = true) (hstop : c.stopped = true) :
      Turned c l (c.finish 0)
  | attempted (hgoes : c.stopped = false) (hstate : c.state ≠ .connected) :
      Turned c .ready ((c.note .attempt).put 0 .acquiring)
  | parked (hgoes : c.stopped = false) (hstate : c.state = .connected) :
      Turned c .ready (c.park 0)
  | awoken {l : Loop} {due : Nat} (hgoes : c.stopped = false) (hsleeps : l.Sleeps due)
      (hdue : due ≤ c.now) : Turned c l (c.put 0 .ready)
  | heard (hgoes : c.stopped = false) (hline : 0 ∉ c.waiting) : Turned c .parked (c.holdOff 0)

theorem turned {c : Reconnect} {l : Loop} (hl : c.loops = [l]) : Turned c l (c.turn 0) := by
  unfold turn
  cases hready : c.loopReady 0 with
  | false => exact .idle hready
  | true =>
    cases hstop : c.stopped with
    | true => exact .finished hready hstop
    | false =>
      cases l with
      | ready =>
        by_cases hstate : c.state = .connected
        · simpa [hl, hstate] using Turned.parked hstop hstate
        · simpa [hl, hstate] using Turned.attempted hstop hstate
      | acquiring => cases (loopReady_acquiring hl).symm.trans hready
      | finished => cases (loopReady_finished hl).symm.trans hready
      | retrying due =>
        have hsleeps : (Loop.retrying due).Sleeps due := .inl rfl
        have hdue : due ≤ c.now := by simpa [hstop] using (loopReady_sleeping hl hsleeps).mp hready
        simpa [hl] using Turned.awoken hstop hsleeps hdue
      | holdingOff due =>
        have hsleeps : (Loop.holdingOff due).Sleeps due := .inr rfl
        have hdue : due ≤ c.now := by simpa [hstop] using (loopReady_sleeping hl hsleeps).mp hready
        simpa [hl] using Turned.awoken hstop hsleeps hdue
      | parked =>
        have hline : 0 ∉ c.waiting := by simpa [hstop] using (loopReady_parked hl).mp hready
        simpa [hl] using Turned.heard hstop hline

end Reconnect

end Vigil.Link
