import Vigil.Proofs.Link.Moves

/-! No loss of the connection goes unheard: while the loop waits to hear of one there is a
connection, and while there is none the loop is at an attempt or on its way to the next. -/
namespace Vigil.Link.Reconnect

/-- Where the one loop can stand. In line to hear of a loss it stands only while there is none. -/
inductive Stands (c : Reconnect) : Loop → Prop where
  | ready (hline : c.waiting = []) : Stands c .ready
  | acquiring (hline : c.waiting = []) (hstate : c.state ≠ .connected) : Stands c .acquiring
  | retrying {due : Nat} (hline : c.waiting = []) (hstate : c.state ≠ .connected)
      (hdue : due ≤ c.now + c.interval) : Stands c (.retrying due)
  | inLine (hline : c.waiting = [0]) (hstate : c.state = .connected) (hpermit : c.permit = false) :
      Stands c .parked
  | called (hline : c.waiting = []) : Stands c .parked
  | holdingOff {due : Nat} (hline : c.waiting = []) (hdue : due ≤ c.now + c.interval) :
      Stands c (.holdingOff due)
  | finished (hline : c.waiting = []) (hstop : c.stopped = true) : Stands c .finished

theorem Stands.line {c : Reconnect} {l : Loop} (h : c.Stands l) :
    c.waiting = [] ∨ c.waiting = [0] := by
  cases h with
  | inLine hline => exact .inr hline
  | ready hline => exact .inl hline
  | acquiring hline => exact .inl hline
  | retrying hline => exact .inl hline
  | called hline => exact .inl hline
  | holdingOff hline => exact .inl hline
  | finished hline => exact .inl hline

/-- Time and stops move no loop by themselves. -/
theorem Stands.congr {c c' : Reconnect} {l : Loop} (h : c.Stands l) (hline' : c'.waiting = c.waiting)
    (hstate' : c'.state = c.state) (hpermit' : c'.permit = c.permit)
    (hinterval : c'.interval = c.interval) (hnow : c.now ≤ c'.now)
    (hstop' : c.stopped = true → c'.stopped = true) : c'.Stands l := by
  cases h with
  | ready hline => exact .ready (hline'.trans hline)
  | acquiring hline hstate => exact .acquiring (hline'.trans hline) (hstate' ▸ hstate)
  | retrying hline hstate hdue =>
    exact .retrying (hline'.trans hline) (hstate' ▸ hstate) (by omega)
  | inLine hline hstate hpermit =>
    exact .inLine (hline'.trans hline) (hstate'.trans hstate) (hpermit'.trans hpermit)
  | called hline => exact .called (hline'.trans hline)
  | holdingOff hline hdue => exact .holdingOff (hline'.trans hline) (by omega)
  | finished hline hstop => exact .finished (hline'.trans hline) (hstop' hstop)

/-- One loop, which stands where it can and waits this long between two attempts. -/
structure Steady (c : Reconnect) (interval : Nat) : Prop where
  interval_eq : c.interval = interval
  loop : ∃ l, c.loops = [l] ∧ c.Stands l

namespace Steady

variable {c : Reconnect} {interval : Nat}

theorem pass (h : c.Steady interval) (elapsed : Nat) :
    Steady { c with now := c.now + elapsed } interval := by
  obtain ⟨hinterval, l, hl, hstands⟩ := h
  exact ⟨hinterval, l, hl, hstands.congr rfl rfl rfl rfl (Nat.le_add_right _ _) id⟩

theorem stop (h : c.Steady interval) : c.stop.Steady interval := by
  obtain ⟨hinterval, l, hl, hstands⟩ := h
  exact ⟨hinterval, l, hl, hstands.congr rfl rfl rfl rfl (Nat.le_refl _) fun _ => rfl⟩

/-- A loss calls the loop out of the line it stands in. -/
theorem markDisconnected (h : c.Steady interval) : c.markDisconnected.Steady interval := by
  by_cases hconn : c.state = .connected
  · obtain ⟨hinterval, l, hl, hstands⟩ := h
    rw [markDisconnected_of_connected c hconn]
    refine ⟨hinterval, l, hl, ?_⟩
    cases hstands with
    | ready hline => exact .ready (by simp [hline])
    | acquiring hline hstate => exact absurd hconn hstate
    | retrying hline hstate => exact absurd hconn hstate
    | inLine hline => exact .called (by simp [hline])
    | called hline => exact .called (by simp [hline])
    | holdingOff hline hdue => exact .holdingOff (by simp [hline]) hdue
    | finished hline hstop => exact .finished (by simp [hline]) hstop
  · rw [markDisconnected_of_ne c hconn]
    exact h

theorem finish (hinterval : c.interval = interval) {l : Loop} (hl : c.loops = [l])
    (hline : c.waiting = [] ∨ c.waiting = [0]) (hstop : c.stopped = true) :
    (c.finish 0).Steady interval := by
  refine ⟨hinterval, .finished, by simp [Reconnect.finish, put, hl], .finished ?_ hstop⟩
  rcases hline with hline | hline <;> simp [Reconnect.finish, put, hline]

/-- Whoever finds a permit does not get in line. -/
theorem park (hinterval : c.interval = interval) {l : Loop} (hl : c.loops = [l])
    (hline : c.waiting = []) (hstate : c.state = .connected) : (c.park 0).Steady interval := by
  unfold Reconnect.park
  cases hpermit : c.permit with
  | true => exact ⟨hinterval, _, by simp [holdOff, put, hl], .holdingOff hline (Nat.le_refl _)⟩
  | false =>
    exact ⟨hinterval, .parked, by simp [put, hl], .inLine (by simp [put, hline]) hstate rfl⟩

theorem turn (h : c.Steady interval) : (c.turn 0).Steady interval := by
  obtain ⟨hinterval, l, hl, hstands⟩ := id h
  have ht := turned hl
  generalize c.turn 0 = c' at ht ⊢
  cases ht with
  | idle => exact h
  | finished hready hstop => exact finish hinterval hl hstands.line hstop
  | attempted hgoes hstate =>
    cases hstands with
    | ready hline =>
      exact ⟨hinterval, .acquiring, by simp [put, note, hl], .acquiring hline hstate⟩
  | parked hgoes hstate =>
    cases hstands with
    | ready hline => exact park hinterval hl hline hstate
  | awoken hgoes hsleeps =>
    refine ⟨hinterval, .ready, by simp [put, hl], .ready ?_⟩
    rcases hsleeps with rfl | rfl
    · cases hstands with
      | retrying hline => exact hline
    · cases hstands with
      | holdingOff hline => exact hline
  | heard hgoes hnot =>
    cases hstands with
    | inLine hline => simp [hline] at hnot
    | called hline =>
      exact ⟨hinterval, _, by simp [holdOff, put, hl], .holdingOff hline (Nat.le_refl _)⟩

end Steady

/-! ### Ends of attempts -/

/-- The loop is told of the end of its attempt, and stands in no line. -/
structure Concluding (c : Reconnect) (interval : Nat) : Prop where
  interval_eq : c.interval = interval
  loop : c.loops = [.acquiring]
  line : c.waiting = []

namespace Concluding

variable {c : Reconnect} {interval : Nat}

theorem call (h : c.Concluding interval) (k : Call) : (c.call k).Concluding interval := by
  cases k with
  | stop => exact ⟨h.interval_eq, h.loop, h.line⟩
  | markDisconnected =>
    change c.markDisconnected.Concluding interval
    by_cases hconn : c.state = .connected
    · rw [markDisconnected_of_connected c hconn]
      exact ⟨h.interval_eq, h.loop, by simp [h.line]⟩
    · rw [markDisconnected_of_ne c hconn]
      exact h

theorem calls (h : c.Concluding interval) (calls : List Call) :
    (calls.foldl Reconnect.call c).Concluding interval := by
  induction calls generalizing c with
  | nil => exact h
  | cons k rest ih => exact ih (h.call k)

theorem connect (h : c.Concluding interval) (r : Record) : (c.connect r).Concluding interval := by
  unfold Reconnect.connect
  by_cases hstop : c.stopped = true
  · rw [if_pos hstop]
    exact h
  · rw [if_neg hstop]
    exact ⟨h.interval_eq, h.loop, h.line⟩

theorem settle (h : c.Concluding interval) (found : Option Record) (calls : List Call) :
    (c.settle found calls).Concluding interval := by
  cases found with
  | none => exact h
  | some r =>
    simp only [Reconnect.settle]
    by_cases hstop : c.stopped = true
    · rw [if_pos hstop]
      exact h
    · rw [if_neg hstop]
      exact (h.connect r).calls calls

theorem resume (h : c.Concluding interval) : (c.resume 0).Steady interval := by
  obtain ⟨hinterval, hl, hline⟩ := h
  unfold Reconnect.resume
  by_cases hstop : c.stopped = true
  · rw [if_pos hstop]
    exact .finish hinterval hl (.inl hline) hstop
  · rw [if_neg hstop]
    by_cases hstate : c.state = .connected
    · rw [if_pos hstate]
      exact .park hinterval hl hline hstate
    · rw [if_neg hstate]
      exact ⟨hinterval, _, by simp [put, hl], .retrying hline hstate (Nat.le_refl _)⟩

end Concluding

namespace Steady

variable {c : Reconnect} {interval : Nat}

theorem concluding (h : c.Steady interval) (hl : c.loops = [.acquiring]) :
    c.Concluding interval := by
  obtain ⟨hinterval, l, hl', hstands⟩ := h
  obtain rfl : l = .acquiring := by simpa [hl] using hl'.symm
  cases hstands with
  | acquiring hline => exact ⟨hinterval, hl, hline⟩

theorem conclude (h : c.Steady interval) (hl : c.loops = [.acquiring]) (found : Option Record)
    (calls : List Call) : (c.conclude found calls).Steady interval :=
  ((h.concluding hl).settle found calls).resume

theorem step (h : c.Steady interval) (move : Move) : (c.step move).Steady interval := by
  cases move with
  | pass elapsed => exact h.pass elapsed
  | turn => exact h.turn
  | call k =>
    cases k with
    | markDisconnected => exact h.markDisconnected
    | stop => exact h.stop
  | conclude found calls =>
    by_cases hl : c.loops = [.acquiring]
    · rw [step_conclude_of_acquiring hl]
      exact h.conclude hl found calls
    · rw [step_conclude_of_ne hl]
      exact h

theorem run (interval : Nat) (moves : List Move) :
    (run (start interval) moves).Steady interval := by
  have hstart : (start interval).Steady interval := ⟨rfl, .ready, rfl, .ready rfl⟩
  exact run_induction (P := (·.Steady interval)) (fun _ move h => h.step move) hstart moves

end Steady

/-! ### The way to the next attempt -/

section

variable {c : Reconnect}

theorem turn_of_acquiring (hl : c.loops = [.acquiring]) : c.turn 0 = c := by
  simp [turn, loopReady_acquiring hl]

theorem turn_of_ready (hl : c.loops = [.ready]) (hgoes : c.stopped = false)
    (hstate : c.state ≠ .connected) : (c.turn 0).loops = [.acquiring] := by
  simp [turn, loopReady_ready hl, hgoes, hstate, hl, put, note]

theorem turn_of_due {l : Loop} {due : Nat} (hl : c.loops = [l]) (hsleeps : l.Sleeps due)
    (hgoes : c.stopped = false) (hdue : due ≤ c.now) : c.turn 0 = c.put 0 .ready := by
  have hready : c.loopReady 0 = true := (loopReady_sleeping hl hsleeps).mpr (.inr hdue)
  rcases hsleeps with rfl | rfl <;> simp [turn, hready, hgoes, hl]

theorem turn_of_early {l : Loop} {due : Nat} (hl : c.loops = [l]) (hsleeps : l.Sleeps due)
    (hgoes : c.stopped = false) (hnow : c.now < due) : c.turn 0 = c := by
  have hready : c.loopReady 0 = false := by
    rw [← Bool.not_eq_true, loopReady_sleeping hl hsleeps]
    simp [hgoes, hnow]
  simp [turn, hready]

theorem turn_of_called (hl : c.loops = [.parked]) (hgoes : c.stopped = false)
    (hline : c.waiting = []) : c.turn 0 = c.holdOff 0 := by
  have hready : c.loopReady 0 = true := (loopReady_parked hl).mpr (.inr (by simp [hline]))
  simp [turn, hready, hgoes, hl]

/-- Whoever wakes up without a connection makes an attempt. -/
theorem turns_of_due {l : Loop} {due : Nat} (hl : c.loops = [l]) (hsleeps : l.Sleeps due)
    (hgoes : c.stopped = false) (hstate : c.state ≠ .connected) (hdue : due ≤ c.now) :
    ((c.turn 0).turn 0).loops = [.acquiring] := by
  rw [turn_of_due hl hsleeps hgoes hdue]
  exact turn_of_ready (by simp [put, hl]) hgoes hstate

theorem run_of_acquiring (hl : c.loops = [.acquiring]) (wait : Nat) :
    (c.run [.pass wait, .turn, .turn]).loops = [.acquiring] := by
  have hpass : ({ c with now := c.now + wait } : Reconnect).loops = [.acquiring] := hl
  change ((Reconnect.turn 0 { c with now := c.now + wait }).turn 0).loops = _
  rw [turn_of_acquiring hpass, turn_of_acquiring hpass, hpass]

theorem run_of_sleeping {l : Loop} {due : Nat} (hl : c.loops = [l]) (hsleeps : l.Sleeps due)
    (hgoes : c.stopped = false) (hstate : c.state ≠ .connected) (hdue : due ≤ c.now + c.interval) :
    ∃ wait ≤ c.interval, (c.run [.turn, .pass wait, .turn, .turn]).loops = [.acquiring] := by
  by_cases hnow : due ≤ c.now
  · refine ⟨0, Nat.zero_le _, ?_⟩
    change (((c.turn 0).turn 0).turn 0).loops = _
    have hwoken := turns_of_due hl hsleeps hgoes hstate hnow
    rw [turn_of_acquiring hwoken, hwoken]
  · have hnow : c.now < due := Nat.not_le.mp hnow
    refine ⟨due - c.now, by omega, ?_⟩
    change ((Reconnect.turn 0 { c.turn 0 with now := (c.turn 0).now + (due - c.now) }).turn
      0).loops = _
    rw [turn_of_early hl hsleeps hgoes hnow]
    exact turns_of_due hl hsleeps hgoes hstate (by dsimp only; omega)

/-- With no connection the loop is at an attempt after a turn, a wait and two turns. -/
theorem Steady.attempts {interval : Nat} (h : c.Steady interval) (hgoes : c.stopped = false)
    (hstate : c.state ≠ .connected) :
    ∃ wait ≤ interval, (c.run [.turn, .pass wait, .turn, .turn]).loops = [.acquiring] := by
  obtain ⟨rfl, l, hl, hstands⟩ := h
  cases hstands with
  | ready =>
    have hturn : (c.turn 0).loops = [.acquiring] := turn_of_ready hl hgoes hstate
    exact ⟨0, Nat.zero_le _, run_of_acquiring hturn 0⟩
  | acquiring =>
    have hturn : (c.turn 0).loops = [.acquiring] := by rw [turn_of_acquiring hl, hl]
    exact ⟨0, Nat.zero_le _, run_of_acquiring hturn 0⟩
  | retrying _ _ hdue => exact run_of_sleeping hl (.inl rfl) hgoes hstate hdue
  | holdingOff _ hdue => exact run_of_sleeping hl (.inr rfl) hgoes hstate hdue
  | inLine _ hconn => exact absurd hconn hstate
  | called hline =>
    refine ⟨c.interval, Nat.le_refl _, ?_⟩
    change ((Reconnect.turn 0 { c.turn 0 with now := (c.turn 0).now + c.interval }).turn
      0).loops = _
    rw [turn_of_called hl hgoes hline]
    have hsleeps : (Loop.holdingOff (c.now + c.interval)).Sleeps _ := .inr rfl
    exact turns_of_due (by simp [holdOff, put, hl]) hsleeps hgoes hstate (Nat.le_refl _)
  | finished _ hstop => cases hgoes.symm.trans hstop

/-- With no connection a loop that has nothing to do is at an attempt or asleep until the next. -/
theorem Steady.trying {interval : Nat} (h : c.Steady interval) (hgoes : c.stopped = false)
    (hstate : c.state ≠ .connected) (hidle : c.loopReady 0 = false) :
    c.loops = [.acquiring] ∨
      ∃ l due, c.loops = [l] ∧ l.Sleeps due ∧ c.now < due ∧ due ≤ c.now + interval := by
  obtain ⟨rfl, l, hl, hstands⟩ := h
  have hsleeping {due : Nat} (hsleeps : l.Sleeps due) : c.now < due := by
    have hnot := mt (loopReady_sleeping hl hsleeps).mpr (by simp [hidle])
    omega
  cases hstands with
  | ready => cases hidle.symm.trans (loopReady_ready hl)
  | acquiring => exact .inl hl
  | retrying hline _ hdue => exact .inr ⟨_, _, hl, .inl rfl, hsleeping (.inl rfl), hdue⟩
  | holdingOff hline hdue => exact .inr ⟨_, _, hl, .inr rfl, hsleeping (.inr rfl), hdue⟩
  | inLine hline hconn => exact absurd hconn hstate
  | called hline =>
    have hready : c.loopReady 0 = true := (loopReady_parked hl).mpr (.inr (by simp [hline]))
    cases hidle.symm.trans hready
  | finished hline hstop => cases hgoes.symm.trans hstop

end

/-- However calls, turns and attempts come about, also out of announcements: while the loop waits in
line to hear of a loss, no loss is kept from it and there is a connection. So as long as there is
none and nobody has stopped, the loop is at an attempt, or asleep for what remains of an interval,
whenever it has nothing to do; and with its turns and one interval at most it gets to an attempt. -/
theorem loss_heard (interval : Nat) (moves : List Move) :
    let c := run (start interval) moves
    (c.loops = [.parked] → 0 ∈ c.waiting → c.permit = false ∧ c.state = .connected) ∧
      (c.state ≠ .connected → c.stopped = false →
        (c.loopReady 0 = false → c.loops = [.acquiring] ∨
          ∃ l due, c.loops = [l] ∧ l.Sleeps due ∧ c.now < due ∧ due ≤ c.now + interval) ∧
        ∃ wait ≤ interval, (c.run [.turn, .pass wait, .turn, .turn]).loops = [.acquiring]) := by
  intro c
  have h : c.Steady interval := .run interval moves
  refine ⟨fun hl hline => ?_, fun hstate hgoes => ?_⟩
  · obtain ⟨-, l, hl', hstands⟩ := h
    obtain rfl : l = .parked := by simpa [hl] using hl'.symm
    cases hstands with
    | inLine _ hconn hpermit => exact ⟨hpermit, hconn⟩
    | called hempty => simp [hempty] at hline
  · exact ⟨h.trying hgoes hstate, h.attempts hgoes hstate⟩

/-- The first connection is lost while it is announced. Once the second is there and the loop in
line again, that loss is settled; a new one is heard. -/
theorem announced_loss_heard :
    let r : Record := { port := 1, pid := 100 }
    let moves : List Move := [.turn, .conclude (some r) [.markDisconnected], .pass 3, .turn, .turn,
      .conclude (some r) [], .pass 3, .turn, .turn]
    let moves' := moves ++ [.call .markDisconnected]
    let c := run (start 3) moves
    let c' := run (start 3) moves'
    (c.loops = [.parked] ∧ 0 ∈ c.waiting ∧ c.permit = false ∧ c.state = .connected) ∧
      c'.loops = [.parked] ∧ c'.state ≠ .connected ∧ c'.stopped = false ∧
        ∃ wait ≤ 3, (c'.run [.turn, .pass wait, .turn, .turn]).loops = [.acquiring] := by
  intro r moves moves' c c'
  have hl : c.loops = [.parked] := by decide
  have hline : 0 ∈ c.waiting := by decide
  have hl' : c'.loops = [.parked] := by decide
  have hstate : c'.state ≠ .connected := by decide
  have hgoes : c'.stopped = false := by decide
  obtain ⟨hpermit, hconn⟩ := (loss_heard 3 moves).1 hl hline
  obtain ⟨-, hattempt⟩ := (loss_heard 3 moves').2 hstate hgoes
  exact ⟨⟨hl, hline, hpermit, hconn⟩, hl', hstate, hgoes, hattempt⟩

end Vigil.Link.Reconnect
