import Vigil.Proofs.Link.Losses

/-! What becomes of a connection over a whole run: it comes and goes by turns, each one that comes is
announced once, and behind a stop none comes any more. -/
namespace Vigil.Link

def ReconnectDeed.entered : ReconnectDeed → Option State
  | .enter s => some s
  | _ => none

def ReconnectDeed.announced : ReconnectDeed → Option Record
  | .announce r => some r
  | _ => none

namespace Reconnect

/-- The states so far, the oldest first. -/
def states (c : Reconnect) : List State := .never :: c.deeds.filterMap ReconnectDeed.entered

theorem states_of_deeds {c c' : Reconnect} {ds : List ReconnectDeed}
    (h : c'.deeds = c.deeds ++ ds) :
    c'.states = c.states ++ ds.filterMap ReconnectDeed.entered := by
  simp [states, h]

/-- The attempt under way ends with this connection, and nobody has stopped. -/
def Gains (c : Reconnect) (move : Move) (r : Record) : Prop :=
  c.loops = [.acquiring] ∧ c.stopped = false ∧ ∃ calls, move = .conclude (some r) calls

theorem not_gains {c : Reconnect} {move : Move} (h : ∀ r calls, move ≠ .conclude (some r) calls)
    (r : Record) : ¬c.Gains move r := fun ⟨_, _, calls, hmove⟩ => h r calls hmove

/-- Somebody stops; also who is told of a connection. -/
def Stops (c : Reconnect) (move : Move) : Prop :=
  move = .call .stop ∨
    c.loops = [.acquiring] ∧ ∃ r calls, move = .conclude (some r) calls ∧ .stop ∈ calls

/-! ### States in turn -/

/-- States one behind the other: a connection is lost once it is there, and comes while it is not. -/
inductive Passed : State → List State → Prop where
  | never : Passed .never [.never]
  | connected {s : State} {l : List State} (h : Passed s l) (hs : s ≠ .connected) :
      Passed .connected (l ++ [.connected])
  | lost {l : List State} (h : Passed .connected l) : Passed .lost (l ++ [.lost])

theorem Passed.getLast {s : State} {l : List State} (h : Passed s l) : l.getLast? = some s := by
  cases h with
  | never => rfl
  | connected => simp
  | lost => simp

/-- Only the loss of the last connection can be missing for full rounds. -/
theorem Passed.rounds {s : State} {l : List State} (h : Passed s l) :
    ∃ k, State.never :: (List.replicate k [.connected, .lost]).flatten =
      if s = .connected then l ++ [.lost] else l := by
  induction h with
  | never => exact ⟨0, rfl⟩
  | @connected s l h hs ih =>
    obtain ⟨k, hk⟩ := ih
    refine ⟨k + 1, ?_⟩
    rw [if_neg hs] at hk
    rw [if_pos rfl, List.replicate_succ', List.flatten_append, ← List.cons_append, hk]
    simp
  | lost h ih =>
    obtain ⟨k, hk⟩ := ih
    exact ⟨k, by simpa using hk⟩

theorem Passed.prefix_rounds {s : State} {l : List State} (h : Passed s l) :
    ∃ k, l <+: State.never :: (List.replicate k [.connected, .lost]).flatten := by
  obtain ⟨k, hk⟩ := h.rounds
  refine ⟨k, ?_⟩
  rw [hk]
  split
  · exact List.prefix_append _ _
  · exact List.prefix_rfl

/-! ### What a move comes to -/

/-- Nothing happens but perhaps the loss of the connection that was there. -/
inductive Loses (c c' : Reconnect) : Prop where
  | kept (hdeeds : c'.deeds = c.deeds) (hstate : c'.state = c.state)
  | lost (hconn : c.state = .connected) (hdeeds : c'.deeds = c.deeds ++ [.enter .lost])
      (hstate : c'.state = .lost)

namespace Loses

variable {c c' c'' : Reconnect}

theorem trans (h : c.Loses c') (h' : c'.Loses c'') : c.Loses c'' := by
  cases h with
  | kept hdeeds hstate =>
    cases h' with
    | kept hdeeds' hstate' => exact .kept (hdeeds'.trans hdeeds) (hstate'.trans hstate)
    | lost hconn hdeeds' hstate' => exact .lost (hstate ▸ hconn) (hdeeds ▸ hdeeds') hstate'
  | lost hconn hdeeds hstate =>
    cases h' with
    | kept hdeeds' hstate' => exact .lost hconn (hdeeds'.trans hdeeds) (hstate'.trans hstate)
    | lost hconn' => cases hstate.symm.trans hconn'

theorem call (k : Call) : c.Loses (c.call k) := by
  cases k with
  | stop => exact .kept rfl rfl
  | markDisconnected =>
    change c.Loses c.markDisconnected
    by_cases hconn : c.state = .connected
    · rw [markDisconnected_of_connected c hconn]
      exact .lost hconn (c.enter_deeds .lost) rfl
    · rw [markDisconnected_of_ne c hconn]
      exact .kept rfl rfl

theorem calls (calls : List Call) : c.Loses (calls.foldl Reconnect.call c) := by
  induction calls generalizing c with
  | nil => exact .kept rfl rfl
  | cons k rest ih => exact (call k).trans ih

theorem resume : c.Loses (c.resume 0) := .kept (c.resume_deeds 0) (c.resume_state 0)

theorem deeds (h : c.Loses c') :
    ∃ n ≤ 1, c'.deeds = c.deeds ++ List.replicate n (.enter .lost) := by
  cases h with
  | kept hdeeds => exact ⟨0, Nat.zero_le _, by simpa using hdeeds⟩
  | lost _ hdeeds => exact ⟨1, Nat.le_refl _, hdeeds⟩

theorem passed (h : c.Loses c') (hc : Passed c.state c.states) : Passed c'.state c'.states := by
  cases h with
  | kept hdeeds hstate =>
    rw [hstate, states, hdeeds]
    exact hc
  | lost hconn hdeeds hstate =>
    rw [hstate, states_of_deeds hdeeds]
    exact .lost (hconn ▸ hc)

end Loses

/-- All that a move can come to. -/
inductive Stepped (c : Reconnect) (move : Move) (c' : Reconnect) : Prop where
  | loses (hnone : ∀ r, ¬c.Gains move r) (h : c.Loses c')
  | attempted (hnone : ∀ r, ¬c.Gains move r) (hgoes : c.stopped = false)
      (hdeeds : c'.deeds = c.deeds ++ [.attempt]) (hstate : c'.state = c.state)
  | connected (r : Record) (hgains : c.Gains move r)
      (h : ((c.enter .connected).note (.announce r)).Loses c')

theorem stepped_turn {l : Loop} {c : Reconnect} (hl : c.loops = [l]) :
    c.Stepped .turn (c.turn 0) := by
  have hnone : ∀ r, ¬c.Gains .turn r := not_gains nofun
  have ht := turned hl
  generalize c.turn 0 = c' at ht ⊢
  cases ht with
  | idle => exact .loses hnone (.kept rfl rfl)
  | finished => exact .loses hnone (.kept rfl rfl)
  | attempted hgoes => exact .attempted hnone hgoes (c.note_deeds .attempt) rfl
  | parked => exact .loses hnone (.kept (c.park_deeds 0) (c.park_state 0))
  | awoken => exact .loses hnone (.kept rfl rfl)
  | heard => exact .loses hnone (.kept rfl rfl)

theorem stepped_conclude {c : Reconnect} (hl : c.loops = [.acquiring]) (found : Option Record)
    (calls : List Call) : c.Stepped (.conclude found calls) (c.conclude found calls) := by
  unfold conclude
  cases found with
  | none => exact .loses (not_gains nofun) .resume
  | some r =>
    cases hstop : c.stopped with
    | true =>
      have hsettle : c.settle (some r) calls = c := if_pos hstop
      rw [hsettle]
      exact .loses (fun r ⟨_, hgoes, _⟩ => nomatch hstop.symm.trans hgoes) .resume
    | false =>
      have hsettle : c.settle (some r) calls =
          calls.foldl call ((c.enter .connected).note (.announce r)) := by
        simp [settle, connect, hstop]
      rw [hsettle]
      exact .connected r ⟨hl, hstop, calls, rfl⟩ ((Loses.calls calls).trans .resume)

theorem stepped {l : Loop} {c : Reconnect} (hl : c.loops = [l]) (move : Move) :
    c.Stepped move (c.step move) := by
  cases move with
  | pass elapsed => exact .loses (not_gains nofun) (.kept rfl rfl)
  | call k => exact .loses (not_gains nofun) (.call k)
  | turn => exact stepped_turn hl
  | conclude found calls =>
    by_cases hacq : c.loops = [.acquiring]
    · rw [step_conclude_of_acquiring hacq]
      exact stepped_conclude hacq found calls
    · rw [step_conclude_of_ne hacq]
      exact .loses (fun r ⟨h, _⟩ => hacq h) (.kept rfl rfl)

namespace Stepped

variable {c c' : Reconnect} {move : Move}

theorem passed (h : c.Stepped move c') (hstate : c.loops = [.acquiring] → c.state ≠ .connected)
    (hc : Passed c.state c.states) : Passed c'.state c'.states := by
  cases h with
  | loses _ h => exact h.passed hc
  | attempted _ _ hdeeds hstate' =>
    have hnone : [ReconnectDeed.attempt].filterMap ReconnectDeed.entered = [] := rfl
    rw [hstate', states_of_deeds hdeeds, hnone, List.append_nil]
    exact hc
  | connected r hgains h =>
    refine h.passed ?_
    have hdeeds : ((c.enter .connected).note (.announce r)).deeds =
        c.deeds ++ [.enter .connected, .announce r] := by simp
    rw [states_of_deeds hdeeds]
    exact .connected hc (hstate hgains.1)

/-- A connection comes with the attempt that brought it, and is announced at once. -/
theorem deeds (h : c.Stepped move c') :
    ∃ ds, c'.deeds = c.deeds ++ ds ∧
      ((∃ r, c.Gains move r ∧ ∃ n ≤ 1,
          ds = .enter .connected :: .announce r :: List.replicate n (.enter .lost)) ∨
        (∀ r, ¬c.Gains move r) ∧ .enter .connected ∉ ds ∧ ∀ r, .announce r ∉ ds) := by
  cases h with
  | loses hnone h =>
    obtain ⟨n, _, hdeeds⟩ := h.deeds
    exact ⟨_, hdeeds, .inr ⟨hnone, by simp, by simp⟩⟩
  | attempted hnone _ hdeeds => exact ⟨_, hdeeds, .inr ⟨hnone, by simp, by simp⟩⟩
  | connected r hgains h =>
    obtain ⟨n, hn, hdeeds⟩ := h.deeds
    exact ⟨_, by simpa using hdeeds, .inl ⟨r, hgains, n, hn, rfl⟩⟩

theorem loses_of_stopped (h : c.Stepped move c') (hstop : c.stopped = true) : c.Loses c' := by
  cases h with
  | loses _ h => exact h
  | attempted _ hgoes => cases hgoes.symm.trans hstop
  | connected _ hgains => cases hgains.2.1.symm.trans hstop

end Stepped

theorem passed_run (interval : Nat) (moves : List Move) :
    let c := Reconnect.run (start interval) moves
    Passed c.state c.states := by
  have hstart : (start interval).Steady interval ∧
      Passed (start interval).state (start interval).states := ⟨.run interval [], .never⟩
  refine (run_induction (P := fun c => c.Steady interval ∧ Passed c.state c.states)
    (fun c move h => ⟨h.1.step move, ?_⟩) hstart moves).2
  obtain ⟨hsteady, hpassed⟩ := h
  obtain ⟨l, hl, hstands⟩ := hsteady.loop
  refine (stepped hl move).passed (fun hacq => ?_) hpassed
  obtain rfl : l = .acquiring := by simpa [hacq] using hl.symm
  cases hstands with
  | acquiring _ hstate => exact hstate

/-! ### Announcements -/

/-- The connections that were announced so far, the first one first. -/
def announced (c : Reconnect) : List Record := c.deeds.filterMap ReconnectDeed.announced

theorem announced_of_deeds {c c' : Reconnect} {ds : List ReconnectDeed}
    (h : c'.deeds = c.deeds ++ ds) :
    c'.announced = c.announced ++ ds.filterMap ReconnectDeed.announced := by
  simp [announced, h]

theorem resume_announced (c : Reconnect) (n : Nat) : (c.resume n).announced = c.announced :=
  congrArg (List.filterMap _) (c.resume_deeds n)

theorem turn_announced (c : Reconnect) (n : Nat) : (c.turn n).announced = c.announced := by
  unfold turn
  split
  · rfl
  · split
    · rfl
    · split
      · split
        · exact congrArg (List.filterMap _) (c.park_deeds n)
        · have hdeeds : ((c.note .attempt).put n .acquiring).deeds = c.deeds ++ [.attempt] :=
            c.note_deeds .attempt
          exact (announced_of_deeds hdeeds).trans (List.append_nil _)
      · rfl
      · rfl
      · rfl
      · rfl

theorem markDisconnected_announced (c : Reconnect) :
    c.markDisconnected.announced = c.announced := by
  obtain ⟨n, -, hdeeds⟩ := (Loses.call (c := c) .markDisconnected).deeds
  have hnone : (List.replicate n (ReconnectDeed.enter .lost)).filterMap
      ReconnectDeed.announced = [] := by simp [ReconnectDeed.announced]
  have hgrown := announced_of_deeds hdeeds
  rw [hnone, List.append_nil] at hgrown
  exact hgrown

/-- A connection that counts is announced. -/
theorem connect_announced {c : Reconnect} (hgoes : c.stopped = false) (r : Record) :
    (c.connect r).announced = c.announced ++ [r] := by
  have hdeeds : (c.connect r).deeds = c.deeds ++ [.enter .connected, .announce r] := by
    simp [connect, hgoes]
  exact announced_of_deeds hdeeds

/-! ### Stopping -/

theorem call_stopped_iff (c : Reconnect) (k : Call) :
    (c.call k).stopped = true ↔ c.stopped = true ∨ k = .stop := by
  cases k with
  | stop => simp [call, stop]
  | markDisconnected =>
    have hsame : c.markDisconnected.stopped = c.stopped := by
      by_cases hconn : c.state = .connected
      · rw [markDisconnected_of_connected c hconn]
        rfl
      · rw [markDisconnected_of_ne c hconn]
    simp [call, hsame]

theorem calls_stopped_iff (c : Reconnect) (calls : List Call) :
    (calls.foldl call c).stopped = true ↔ c.stopped = true ∨ .stop ∈ calls := by
  induction calls generalizing c with
  | nil => simp
  | cons k rest ih =>
    rw [List.foldl_cons, ih, call_stopped_iff, List.mem_cons, or_assoc, eq_comm (a := k)]

theorem turn_stopped {l : Loop} {c : Reconnect} (hl : c.loops = [l]) :
    (c.turn 0).stopped = c.stopped := by
  have ht := turned hl
  generalize c.turn 0 = c' at ht ⊢
  cases ht with
  | parked => exact c.park_stopped 0
  | idle => rfl
  | finished => rfl
  | attempted => rfl
  | awoken => rfl
  | heard => rfl

theorem settle_stopped_iff {c : Reconnect} (hl : c.loops = [.acquiring]) (found : Option Record)
    (calls : List Call) : (c.settle found calls).stopped = true ↔
      c.stopped = true ∨ c.Stops (.conclude found calls) := by
  cases found with
  | none => simp [settle, Stops]
  | some r =>
    have hstops : c.Stops (.conclude (some r) calls) ↔ .stop ∈ calls := by
      simp [Stops, hl, and_assoc]
    rw [hstops]
    cases hstop : c.stopped with
    | true => simp [settle, hstop]
    | false => simp [settle, hstop, calls_stopped_iff, connect, enter, note]

theorem step_stopped_iff {l : Loop} {c : Reconnect} (hl : c.loops = [l]) (move : Move) :
    (c.step move).stopped = true ↔ c.stopped = true ∨ c.Stops move := by
  cases move with
  | pass elapsed => simp [step, Stops]
  | call k => simp [step, Stops, call_stopped_iff]
  | turn => simp [step, Stops, turn_stopped hl]
  | conclude found calls =>
    by_cases hacq : c.loops = [.acquiring]
    · rw [step_conclude_of_acquiring hacq, conclude, resume_stopped]
      exact settle_stopped_iff hacq found calls
    · simp [step_conclude_of_ne hacq, Stops, hacq]

/-- Whatever the loop does but attempt, it finishes with its next turn. -/
theorem turn_of_stopped {l : Loop} {c : Reconnect} (hl : c.loops = [l]) (hstop : c.stopped = true)
    (hacq : l ≠ .acquiring) : (c.turn 0).loops = [.finished] := by
  have hready (h : c.loopReady 0 = true) : (c.turn 0).loops = [.finished] := by
    simp [turn, h, hstop, finish, put, hl]
  cases l with
  | ready => exact hready (loopReady_ready hl)
  | acquiring => exact absurd rfl hacq
  | retrying due => exact hready ((loopReady_sleeping hl (.inl rfl)).mpr (.inl hstop))
  | parked => exact hready ((loopReady_parked hl).mpr (.inl hstop))
  | holdingOff due => exact hready ((loopReady_sleeping hl (.inr rfl)).mpr (.inl hstop))
  | finished => simpa [turn, loopReady_finished hl] using hl

theorem Concluding.resume_of_stopped {interval : Nat} {c : Reconnect} (h : c.Concluding interval)
    (hstop : (c.resume 0).stopped = true) : (c.resume 0).loops = [.finished] := by
  rw [resume_stopped] at hstop
  simp [Reconnect.resume, hstop, finish, put, h.loop]

/-- An attempt that ends behind a stop, or with one, is the last. -/
theorem Steady.conclude_of_stopped {interval : Nat} {c : Reconnect} (h : c.Steady interval)
    (hl : c.loops = [.acquiring]) (found : Option Record) (calls : List Call)
    (hstop : (c.conclude found calls).stopped = true) :
    (c.conclude found calls).loops = [.finished] :=
  ((h.concluding hl).settle found calls).resume_of_stopped hstop

theorem Steady.run_of_stopped {interval : Nat} {c : Reconnect} (h : c.Steady interval)
    (hstop : c.stopped = true) (moves : List Move) :
    (c.run moves).stopped = true ∧ c.Loses (c.run moves) := by
  have hstep : ∀ (c' : Reconnect) move, c'.Steady interval ∧ c'.stopped = true ∧ c.Loses c' →
      (c'.step move).Steady interval ∧ (c'.step move).stopped = true ∧ c.Loses (c'.step move) := by
    intro c' move ⟨h, hstop, hloses⟩
    obtain ⟨l, hl, -⟩ := h.loop
    have hloses' : c'.Loses (c'.step move) := (stepped hl move).loses_of_stopped hstop
    exact ⟨h.step move, (step_stopped_iff hl move).mpr (.inl hstop), hloses.trans hloses'⟩
  exact (run_induction hstep ⟨h, hstop, .kept rfl rfl⟩ moves).2

/-- The connection comes and goes by turns. It comes with the end of an attempt that brought it
while nobody had stopped, and only so, and is announced once, at once. Whoever stops does it for
good, be it from outside, within an attempt or out of an announcement: then nothing happens any more
but perhaps the loss of the last connection, and the loop finishes with its next turn, or with the
end of the attempt that is under way. -/
theorem connections_by_turns (interval : Nat) (moves : List Move) :
    let c := run (start interval) moves
    (c.states.getLast? = some c.state ∧
        ∃ k, c.states <+: .never :: (List.replicate k [.connected, .lost]).flatten) ∧
      (∀ move, ∃ ds, (c.step move).deeds = c.deeds ++ ds ∧
        ((∃ r, c.Gains move r ∧ ∃ n ≤ 1,
            ds = .enter .connected :: .announce r :: List.replicate n (.enter .lost)) ∨
          (∀ r, ¬c.Gains move r) ∧ .enter .connected ∉ ds ∧ ∀ r, .announce r ∉ ds)) ∧
      (∀ move, (c.step move).stopped = true ↔ c.stopped = true ∨ c.Stops move) ∧
      (c.loops = [.acquiring] → ∀ found calls, (c.conclude found calls).stopped = true →
        (c.conclude found calls).loops = [.finished]) ∧
      (c.stopped = true →
        (c.loops ≠ [.acquiring] → (c.turn 0).loops = [.finished]) ∧
        ∀ later, (c.run later).stopped = true ∧ ∃ n ≤ 1,
          (c.run later).deeds = c.deeds ++ List.replicate n (.enter .lost)) := by
  intro c
  have h : c.Steady interval := .run interval moves
  have hpassed : Passed c.state c.states := passed_run interval moves
  obtain ⟨l, hl, -⟩ := h.loop
  refine ⟨⟨hpassed.getLast, hpassed.prefix_rounds⟩, fun move => (stepped hl move).deeds,
    step_stopped_iff hl, fun hacq found calls => h.conclude_of_stopped hacq found calls,
    fun hstop => ⟨fun hacq => ?_, fun later => ?_⟩⟩
  · have hne : l ≠ .acquiring := fun heq => hacq (heq ▸ hl)
    exact turn_of_stopped hl hstop hne
  · obtain ⟨hstop', hloses⟩ := h.run_of_stopped hstop later
    exact ⟨hstop', hloses.deeds⟩

/-- Who is told of the second connection stops; that connection may still be lost, and no more. -/
theorem stopped_when_told :
    let r : Record := { port := 1, pid := 100 }
    let moves : List Move := [.turn, .conclude (some r) [], .call .markDisconnected, .turn, .pass 3,
      .turn, .turn, .conclude (some r) [.stop]]
    let c := run (start 3) moves
    c.states = [.never, .connected, .lost, .connected] ∧ c.loops = [.finished] ∧ c.stopped = true ∧
      ∀ later, (c.run later).stopped = true ∧ ∃ n ≤ 1,
        (c.run later).deeds = c.deeds ++ List.replicate n (.enter .lost) := by
  intro r moves c
  have hstates : c.states = [.never, .connected, .lost, .connected] := by decide
  have hl : c.loops = [.finished] := by decide
  have hstop : c.stopped = true := by decide
  obtain ⟨-, -, -, -, hstopped⟩ := connections_by_turns 3 moves
  exact ⟨hstates, hl, hstop, (hstopped hstop).2⟩

end Reconnect

end Vigil.Link
