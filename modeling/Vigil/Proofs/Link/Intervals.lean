import Mathlib.Data.List.Induction
import Vigil.Proofs.Link.Connections

/-! How far apart attempts are. Between the end of one and the begin of the next lies an interval,
and so it does behind a loss that the loop waits in line for. But a loss that was called for while a
connection was announced leaves a permit behind, and the loop that finds it with the next connection
waits at once: what is lost of that wait is missing from the wait behind the next loss. -/
namespace Vigil.Link

/-- Whoever is told of the connection says that it is lost. -/
def Reconnect.Move.Unsettles (move : Reconnect.Move) : Prop :=
  ∃ found calls, move = .conclude found calls ∧ Reconnect.Call.markDisconnected ∈ calls

namespace Reconnect

/-- Whatever happens from here on, no attempt begins before this instant. -/
def NoneBefore (c : Reconnect) (due : Nat) : Prop :=
  ∀ later, ∀ s ∈ (c.run later).attempts.drop c.attempts.length, due ≤ s

/-- The instant at which a move ends the attempt under way, if it does. -/
def ended (c : Reconnect) : Move → List Nat
  | .conclude _ _ => if c.loops = [.acquiring] then [c.now] else []
  | _ => []

/-- The ends of the attempts in a run, the oldest first. -/
def ends (c : Reconnect) : List Move → List Nat
  | [] => []
  | move :: rest => c.ended move ++ (c.step move).ends rest

theorem run_concat (c : Reconnect) (moves : List Move) (move : Move) :
    c.run (moves ++ [move]) = (c.run moves).step move := by
  simp [run]

theorem ends_concat (c : Reconnect) (moves : List Move) (move : Move) :
    c.ends (moves ++ [move]) = c.ends moves ++ (c.run moves).ended move := by
  induction moves generalizing c with
  | nil => simp [ends, run]
  | cons first rest ih =>
    have hrun : c.run (first :: rest) = (c.step first).run rest := rfl
    rw [List.cons_append, ends, ends, ih, hrun, List.append_assoc]

/-! ### What happens at one instant -/

/-- The second comes of the first at the same instant and without an attempt. -/
structure AtOnce (c c' : Reconnect) : Prop where
  now : c'.now = c.now
  interval : c'.interval = c.interval
  attempts : c'.attempts = c.attempts

theorem note_attempts (c : Reconnect) {d : ReconnectDeed} (hd : d ≠ .attempt) :
    (c.note d).attempts = c.attempts := by
  cases d with
  | attempt => exact absurd rfl hd
  | enter s => simp [attempts, note]
  | announce r => simp [attempts, note]

theorem note_attempt_attempts (c : Reconnect) :
    (c.note .attempt).attempts = c.attempts ++ [c.now] := by
  simp [attempts, note]

namespace AtOnce

variable {c c' c'' : Reconnect}

theorem refl (c : Reconnect) : c.AtOnce c := ⟨rfl, rfl, rfl⟩

theorem trans (h : c.AtOnce c') (h' : c'.AtOnce c'') : c.AtOnce c'' :=
  ⟨h'.now.trans h.now, h'.interval.trans h.interval, h'.attempts.trans h.attempts⟩

theorem enter (c : Reconnect) (s : State) : c.AtOnce (c.enter s) :=
  ⟨rfl, rfl, note_attempts _ nofun⟩

theorem call (c : Reconnect) (k : Call) : c.AtOnce (c.call k) := by
  cases k with
  | stop => exact ⟨rfl, rfl, rfl⟩
  | markDisconnected =>
    change c.AtOnce c.markDisconnected
    by_cases hconn : c.state = .connected
    · rw [markDisconnected_of_connected c hconn]
      have h := enter c .lost
      exact ⟨h.now, h.interval, h.attempts⟩
    · rw [markDisconnected_of_ne c hconn]
      exact refl c

theorem calls (c : Reconnect) (calls : List Call) : c.AtOnce (calls.foldl Reconnect.call c) := by
  induction calls generalizing c with
  | nil => exact refl c
  | cons k rest ih => exact (call c k).trans (ih (c.call k))

theorem connect (c : Reconnect) (r : Record) : c.AtOnce (c.connect r) := by
  unfold Reconnect.connect
  split
  · exact refl c
  · exact (enter c .connected).trans ⟨rfl, rfl, note_attempts _ nofun⟩

theorem settle (c : Reconnect) (found : Option Record) (told : List Call) :
    c.AtOnce (c.settle found told) := by
  unfold Reconnect.settle
  split
  · split
    · exact refl c
    · exact (connect c _).trans (calls _ told)
  · exact refl c

theorem park (c : Reconnect) (n : Nat) : c.AtOnce (c.park n) := by
  unfold Reconnect.park
  split <;> exact ⟨rfl, rfl, rfl⟩

theorem resume (c : Reconnect) (n : Nat) : c.AtOnce (c.resume n) := by
  unfold Reconnect.resume
  split
  · exact ⟨rfl, rfl, rfl⟩
  · split
    · exact park c n
    · exact ⟨rfl, rfl, rfl⟩

theorem conclude (c : Reconnect) (found : Option Record) (told : List Call) :
    c.AtOnce (c.conclude found told) :=
  (settle c found told).trans (resume _ 0)

end AtOnce

theorem call_loops (c : Reconnect) (k : Call) : (c.call k).loops = c.loops := by
  cases k with
  | stop => rfl
  | markDisconnected =>
    change c.markDisconnected.loops = c.loops
    by_cases hconn : c.state = .connected
    · rw [markDisconnected_of_connected c hconn]
      rfl
    · rw [markDisconnected_of_ne c hconn]

/-! ### Resting -/

/-- Why a loop that stands there begins no attempt before an instant: it begins none any more, the
instant is over, it sleeps until then, or its sleep is still to come. -/
inductive Idles (c : Reconnect) (due : Nat) : Loop → Prop where
  | stopped {l : Loop} (hstop : c.stopped = true) : Idles c due l
  | elapsed {l : Loop} (hdue : due ≤ c.now) : Idles c due l
  | asleep {l : Loop} {wake : Nat} (hsleeps : l.Sleeps wake) (hdue : due ≤ wake) : Idles c due l
  | parked (hdue : due ≤ c.now + c.interval) : Idles c due .parked

/-- The one loop begins no attempt before this instant. -/
def Rests (c : Reconnect) (due : Nat) : Prop := ∃ l, c.loops = [l] ∧ c.Idles due l

theorem Idles.congr {c c' : Reconnect} {l : Loop} {due : Nat} (h : c.Idles due l)
    (hnow : c.now ≤ c'.now) (hinterval : c'.interval = c.interval)
    (hstop : c.stopped = true → c'.stopped = true) : c'.Idles due l := by
  cases h with
  | stopped h => exact .stopped (hstop h)
  | elapsed hdue => exact .elapsed (Nat.le_trans hdue hnow)
  | asleep hsleeps hdue => exact .asleep hsleeps hdue
  | parked hdue => exact .parked (by omega)

/-- Whoever does not sleep has nothing left to wait for. -/
theorem Idles.due_le {c : Reconnect} {l : Loop} {due : Nat} (h : c.Idles due l)
    (hgoes : c.stopped = false) (hawake : ∀ wake, ¬l.Sleeps wake) (hl : l ≠ .parked) :
    due ≤ c.now := by
  cases h with
  | stopped hstop => cases hgoes.symm.trans hstop
  | elapsed hdue => exact hdue
  | asleep hsleeps => exact absurd hsleeps (hawake _)
  | parked => exact absurd rfl hl

theorem Sleeps.unique {l : Loop} {wake wake' : Nat} (h : l.Sleeps wake) (h' : l.Sleeps wake') :
    wake = wake' := by
  rcases h with rfl | rfl <;> rcases h' with h' | h' <;> cases h' <;> rfl

theorem settle_loops (c : Reconnect) (found : Option Record) (told : List Call) :
    (c.settle found told).loops = c.loops := by
  have hcalls (c' : Reconnect) : (told.foldl call c').loops = c'.loops := by
    induction told generalizing c' with
    | nil => rfl
    | cons k rest ih => exact (ih (c'.call k)).trans (c'.call_loops k)
  unfold settle
  split
  · split
    · rfl
    · rw [hcalls]
      unfold connect
      split <;> rfl
  · rfl

namespace Rests

variable {c : Reconnect} {due : Nat}

theorem mono {due' : Nat} (h : c.Rests due) (hle : due' ≤ due) : c.Rests due' := by
  obtain ⟨l, hl, h⟩ := h
  refine ⟨l, hl, ?_⟩
  cases h with
  | stopped hstop => exact .stopped hstop
  | elapsed hdue => exact .elapsed (Nat.le_trans hle hdue)
  | asleep hsleeps hdue => exact .asleep hsleeps (Nat.le_trans hle hdue)
  | parked hdue => exact .parked (Nat.le_trans hle hdue)

theorem pass (h : c.Rests due) (elapsed : Nat) : Rests { c with now := c.now + elapsed } due := by
  obtain ⟨l, hl, h⟩ := h
  exact ⟨l, hl, h.congr (Nat.le_add_right _ _) rfl id⟩

theorem call (h : c.Rests due) (k : Call) : (c.call k).Rests due := by
  obtain ⟨l, hl, h⟩ := h
  have hat := AtOnce.call c k
  exact ⟨l, (c.call_loops k).trans hl, h.congr (Nat.le_of_eq hat.now.symm) hat.interval
    fun hstop => (c.call_stopped_iff k).mpr (.inl hstop)⟩

/-- Whoever parks has a whole interval to wait from then on. -/
theorem park {l : Loop} (hl : c.loops = [l]) : (c.park 0).Rests (c.now + c.interval) := by
  unfold Reconnect.park
  split
  · exact ⟨.holdingOff (c.now + c.interval), by simp [holdOff, put, hl],
      .asleep (.inr rfl) (Nat.le_refl _)⟩
  · exact ⟨.parked, by simp [put, hl], .parked (Nat.le_refl _)⟩

theorem turn (h : c.Rests due) : (c.turn 0).Rests due := by
  obtain ⟨l, hl, h⟩ := h
  have ht := turned hl
  generalize c.turn 0 = c' at ht ⊢
  cases ht with
  | idle => exact ⟨l, hl, h⟩
  | finished _ hstop => exact ⟨.finished, by simp [finish, put, hl], .stopped hstop⟩
  | attempted hgoes =>
    have hdue : due ≤ c.now := h.due_le hgoes (by simp [Loop.Sleeps]) (by simp)
    exact ⟨.acquiring, by simp [put, note, hl], .elapsed hdue⟩
  | parked hgoes =>
    have hdue : due ≤ c.now := h.due_le hgoes (by simp [Loop.Sleeps]) (by simp)
    exact (park hl).mono (Nat.le_add_right_of_le hdue)
  | awoken hgoes hsleeps hwake =>
    refine ⟨.ready, by simp [put, hl], ?_⟩
    cases h with
    | stopped hstop => exact .stopped hstop
    | elapsed hdue => exact .elapsed hdue
    | asleep hsleeps' hdue =>
      exact .elapsed (Nat.le_trans (Sleeps.unique hsleeps' hsleeps ▸ hdue) hwake)
    | parked => rcases hsleeps with h | h <;> cases h
  | heard =>
    refine ⟨.holdingOff (c.now + c.interval), by simp [holdOff, put, hl], ?_⟩
    cases h with
    | stopped hstop => exact .stopped hstop
    | elapsed hdue => exact .elapsed hdue
    | asleep hsleeps => rcases hsleeps with h | h <;> cases h
    | parked hdue => exact .asleep (.inr rfl) hdue

/-- Whatever an attempt brought, a whole interval lies behind it. -/
theorem conclude (hl : c.loops = [.acquiring]) (found : Option Record) (told : List Call) :
    (c.conclude found told).Rests (c.now + c.interval) := by
  have hat := AtOnce.settle c found told
  have hl' : (c.settle found told).loops = [.acquiring] := (c.settle_loops found told).trans hl
  rw [← hat.now, ← hat.interval, Reconnect.conclude]
  generalize c.settle found told = c' at hl' ⊢
  unfold resume
  split
  · rename_i hstop
    exact ⟨.finished, by simp [finish, put, hl'], .stopped hstop⟩
  · split
    · exact park hl'
    · exact ⟨.retrying (c'.now + c'.interval), by simp [put, hl'],
        .asleep (.inl rfl) (Nat.le_refl _)⟩

theorem step (h : c.Rests due) (move : Move) : (c.step move).Rests due := by
  cases move with
  | pass elapsed => exact h.pass elapsed
  | call k => exact h.call k
  | turn => exact h.turn
  | conclude found told =>
    by_cases hacq : c.loops = [.acquiring]
    · rw [step_conclude_of_acquiring hacq]
      cases hstop : c.stopped with
      | true =>
        -- The instant may lie further off than one interval, but a stopped loop rests for good.
        obtain ⟨l, hl, -⟩ := conclude hacq found told
        have hstop' := (step_stopped_iff hacq (.conclude found told)).mpr (.inl hstop)
        rw [step_conclude_of_acquiring hacq] at hstop'
        exact ⟨l, hl, .stopped hstop'⟩
      | false =>
        obtain ⟨l, hl, h⟩ := h
        obtain rfl : l = .acquiring := by simpa [hacq] using hl.symm
        have hdue : due ≤ c.now := h.due_le hstop (by simp [Loop.Sleeps]) nofun
        exact (conclude hacq found told).mono (Nat.le_add_right_of_le hdue)
    · rw [step_conclude_of_ne hacq]
      exact h

end Rests

/-! ### Begins and ends of attempts -/

theorem turn_now (c : Reconnect) (n : Nat) : (c.turn n).now = c.now := by
  unfold turn
  split
  · rfl
  · split
    · rfl
    · split
      · split
        · exact (AtOnce.park c n).now
        · rfl
      · rfl
      · rfl
      · rfl
      · rfl

theorem step_now_le (c : Reconnect) (move : Move) : c.now ≤ (c.step move).now := by
  cases move with
  | pass elapsed => exact Nat.le_add_right _ _
  | call k => exact Nat.le_of_eq (AtOnce.call c k).now.symm
  | turn => exact Nat.le_of_eq (c.turn_now 0).symm
  | conclude found told =>
    by_cases hacq : c.loops = [.acquiring]
    · rw [step_conclude_of_acquiring hacq]
      exact Nat.le_of_eq (AtOnce.conclude c found told).now.symm
    · have hsame := step_conclude_of_ne hacq found told
      exact Nat.le_of_eq (congrArg Reconnect.now hsame).symm

theorem park_loops_ne {c : Reconnect} {l : Loop} (hl : c.loops = [l]) :
    (c.park 0).loops ≠ [.acquiring] := by
  unfold park
  split <;> simp [holdOff, put, hl]

theorem resume_loops_ne {c : Reconnect} {l : Loop} (hl : c.loops = [l]) :
    (c.resume 0).loops ≠ [.acquiring] := by
  unfold resume
  split
  · simp [finish, put, hl]
  · split
    · exact park_loops_ne hl
    · simp [put, hl]

/-- What a move does to the attempts: one begins, one ends, or neither. -/
inductive Paced (c : Reconnect) (move : Move) (c' : Reconnect) : Prop where
  | begun (hl : c.loops = [.ready]) (hgoes : c.stopped = false) (hended : c.ended move = [])
      (hattempts : c'.attempts = c.attempts ++ [c.now]) (hl' : c'.loops = [.acquiring])
  | ended (hl : c.loops = [.acquiring]) (hended : c.ended move = [c.now])
      (hattempts : c'.attempts = c.attempts) (hrests : c'.Rests (c.now + c.interval))
      (hl' : c'.loops ≠ [.acquiring])
  | plain (hended : c.ended move = []) (hattempts : c'.attempts = c.attempts)
      (hl' : c'.loops = [.acquiring] ↔ c.loops = [.acquiring])

theorem paced_turn {l : Loop} {c : Reconnect} (hl : c.loops = [l]) :
    c.Paced .turn (c.turn 0) := by
  have ht := turned hl
  generalize c.turn 0 = c' at ht ⊢
  cases ht with
  | idle => exact .plain rfl rfl Iff.rfl
  | finished hready =>
    have hacq : l ≠ .acquiring := by
      rintro rfl
      cases (loopReady_acquiring hl).symm.trans hready
    exact .plain rfl rfl (by simp [finish, put, hl, hacq])
  | attempted hgoes =>
    exact .begun hl hgoes rfl c.note_attempt_attempts (by simp [put, note, hl])
  | parked => exact .plain rfl (AtOnce.park c 0).attempts (by simp [park_loops_ne hl, hl])
  | awoken hgoes hsleeps =>
    have hacq : l ≠ .acquiring := by
      rintro rfl
      rcases hsleeps with h | h <;> cases h
    exact .plain rfl rfl (by simp [put, hl, hacq])
  | heard => exact .plain rfl rfl (by simp [holdOff, put, hl])

theorem paced {l : Loop} {c : Reconnect} (hl : c.loops = [l]) (move : Move) :
    c.Paced move (c.step move) := by
  cases move with
  | pass elapsed => exact .plain rfl rfl Iff.rfl
  | call k => exact .plain rfl (AtOnce.call c k).attempts (by rw [step, call_loops])
  | turn => exact paced_turn hl
  | conclude found told =>
    by_cases hacq : c.loops = [.acquiring]
    · rw [step_conclude_of_acquiring hacq]
      have hl' : (c.settle found told).loops = [.acquiring] :=
        (c.settle_loops found told).trans hacq
      exact .ended hacq (if_pos hacq) (AtOnce.conclude c found told).attempts
        (.conclude hacq found told) (resume_loops_ne hl')
    · rw [step_conclude_of_ne hacq]
      exact .plain (if_neg hacq) rfl Iff.rfl

/-- A loop that rests stays at rest until the instant comes, and attempts nothing before. -/
theorem Rests.noneBefore {c : Reconnect} {due : Nat} (h : c.Rests due) : c.NoneBefore due := by
  intro later
  have hstep : ∀ (c' : Reconnect) move,
      c'.Rests due ∧ (∃ fresh, c'.attempts = c.attempts ++ fresh ∧ ∀ s ∈ fresh, due ≤ s) →
      (c'.step move).Rests due ∧
        ∃ fresh, (c'.step move).attempts = c.attempts ++ fresh ∧ ∀ s ∈ fresh, due ≤ s := by
    rintro c' move ⟨h, fresh, hfresh, hlate⟩
    refine ⟨h.step move, ?_⟩
    obtain ⟨l, hl, hidles⟩ := h
    have hpaced := paced hl move
    generalize c'.step move = c'' at hpaced ⊢
    cases hpaced with
    | begun hl' hgoes hended hattempts =>
      obtain rfl : l = .ready := by simpa [hl'] using hl.symm
      have hdue : due ≤ c'.now := hidles.due_le hgoes (by simp [Loop.Sleeps]) nofun
      refine ⟨fresh ++ [c'.now], by rw [hattempts, hfresh, List.append_assoc], fun s hs => ?_⟩
      rcases List.mem_append.mp hs with hs | hs
      · exact hlate s hs
      · exact List.mem_singleton.mp hs ▸ hdue
    | ended _ _ hattempts => exact ⟨fresh, hattempts.trans hfresh, hlate⟩
    | plain _ hattempts => exact ⟨fresh, hattempts.trans hfresh, hlate⟩
  obtain ⟨-, fresh, hfresh, hlate⟩ := run_induction hstep ⟨h, [], by simp, by simp⟩ later
  rw [hfresh, List.drop_left]
  exact hlate

/-- Attempts come one by one, and behind the end of each the loop rests for an interval. -/
structure Spaced (c : Reconnect) (interval : Nat) (es : List Nat) : Prop where
  count : c.attempts.length = es.length + if c.loops = [.acquiring] then 1 else 0
  past : ∀ s ∈ c.attempts, s ≤ c.now
  rests : ∀ e ∈ es, c.Rests (e + interval)
  lasts : ∀ (k s e : Nat), c.attempts[k]? = some s → es[k]? = some e → s ≤ e
  apart : ∀ (k e s : Nat), es[k]? = some e → c.attempts[k + 1]? = some s → e + interval ≤ s

theorem getElem?_concat {l : List Nat} {x y k : Nat} (h : (l ++ [x])[k]? = some y) :
    l[k]? = some y ∨ k = l.length ∧ y = x := by
  rw [List.getElem?_append] at h
  split at h
  · exact .inl h
  · rename_i hk
    obtain ⟨hlt, hx⟩ := List.getElem?_eq_some_iff.mp h
    have hlen : k - l.length < 1 := hlt
    exact .inr ⟨by omega, by simpa using hx.symm⟩

namespace Spaced

variable {c c' : Reconnect} {interval : Nat} {es : List Nat}

theorem begun (h : c.Spaced interval es) (hl : c.loops = [.ready]) (hgoes : c.stopped = false)
    (hnow : c.now ≤ c'.now) (hattempts : c'.attempts = c.attempts ++ [c.now])
    (hl' : c'.loops = [.acquiring]) (hrests : ∀ e ∈ es, c'.Rests (e + interval)) :
    c'.Spaced interval es := by
  have hcount : c.attempts.length = es.length := by simpa [hl] using h.count
  have hover : ∀ e ∈ es, e + interval ≤ c.now := by
    intro e he
    obtain ⟨l, hl'', hidles⟩ := h.rests e he
    obtain rfl : l = .ready := by simpa [hl] using hl''.symm
    exact hidles.due_le hgoes (by simp [Loop.Sleeps]) nofun
  refine ⟨by simp [hattempts, hl', hcount], ?_, hrests, ?_, ?_⟩
  · intro s hs
    rw [hattempts, List.mem_append, List.mem_singleton] at hs
    rcases hs with hs | rfl
    · exact Nat.le_trans (h.past s hs) hnow
    · exact hnow
  · intro k s e hs he
    rw [hattempts] at hs
    rcases getElem?_concat hs with hs | ⟨rfl, -⟩
    · exact h.lasts k s e hs he
    · simp [hcount] at he
  · intro k e s he hs
    rw [hattempts] at hs
    rcases getElem?_concat hs with hs | ⟨-, rfl⟩
    · exact h.apart k e s he hs
    · exact hover e (List.mem_of_getElem? he)

theorem ended (h : c.Spaced interval es) (hl : c.loops = [.acquiring]) (hnow : c.now ≤ c'.now)
    (hattempts : c'.attempts = c.attempts) (hl' : c'.loops ≠ [.acquiring])
    (hrests : ∀ e ∈ es, c'.Rests (e + interval)) (hrest : c'.Rests (c.now + interval)) :
    c'.Spaced interval (es ++ [c.now]) := by
  have hcount : c.attempts.length = es.length + 1 := by simpa [hl] using h.count
  refine ⟨by simp [hattempts, hl', hcount], ?_, ?_, ?_, ?_⟩
  · exact fun s hs => Nat.le_trans (h.past s (hattempts ▸ hs)) hnow
  · intro e he
    rw [List.mem_append, List.mem_singleton] at he
    rcases he with he | rfl
    · exact hrests e he
    · exact hrest
  · intro k s e hs he
    rw [hattempts] at hs
    rcases getElem?_concat he with he | ⟨-, rfl⟩
    · exact h.lasts k s e hs he
    · exact h.past s (List.mem_of_getElem? hs)
  · intro k e s he hs
    rw [hattempts] at hs
    rcases getElem?_concat he with he | ⟨rfl, -⟩
    · exact h.apart k e s he hs
    · simp [← hcount] at hs

theorem plain (h : c.Spaced interval es) (hnow : c.now ≤ c'.now)
    (hattempts : c'.attempts = c.attempts) (hl' : c'.loops = [.acquiring] ↔ c.loops = [.acquiring])
    (hrests : ∀ e ∈ es, c'.Rests (e + interval)) : c'.Spaced interval es := by
  refine ⟨by simp only [hattempts, hl', h.count], ?_, hrests, ?_, ?_⟩
  · exact fun s hs => Nat.le_trans (h.past s (hattempts ▸ hs)) hnow
  · exact fun k s e hs he => h.lasts k s e (hattempts ▸ hs) he
  · exact fun k e s he hs => h.apart k e s he (hattempts ▸ hs)

theorem step (h : c.Spaced interval es) (hsteady : c.Steady interval) (move : Move) :
    (c.step move).Spaced interval (es ++ c.ended move) := by
  obtain ⟨hinterval, l, hl, -⟩ := hsteady
  have hrests : ∀ e ∈ es, (c.step move).Rests (e + interval) :=
    fun e he => (h.rests e he).step move
  have hnow := c.step_now_le move
  have hpaced := paced hl move
  generalize c.step move = c' at hpaced hrests hnow ⊢
  cases hpaced with
  | begun hl hgoes hended hattempts hl' =>
    rw [hended, List.append_nil]
    exact h.begun hl hgoes hnow hattempts hl' hrests
  | ended hl hended hattempts hrest hl' =>
    rw [hended]
    exact h.ended hl hnow hattempts hl' hrests (hinterval ▸ hrest)
  | plain hended hattempts hl' =>
    rw [hended, List.append_nil]
    exact h.plain hnow hattempts hl' hrests

theorem run (interval : Nat) (moves : List Move) :
    (run (start interval) moves).Spaced interval ((start interval).ends moves) := by
  induction moves using List.reverseRecOn with
  | nil =>
    have hnone : (Reconnect.run (start interval) []).attempts = [] := rfl
    exact ⟨rfl, by simp [hnone], by simp [ends], by simp [ends], by simp [ends]⟩
  | append_singleton moves move ih =>
    rw [run_concat, ends_concat]
    exact ih.step (.run interval moves) move

end Spaced

/-- Attempts come one by one. None begins before the one before it has ended and a whole interval
has passed since, whatever came of it and whatever was said about the connection meanwhile. -/
theorem attempts_apart (interval : Nat) (moves : List Move) :
    let c := run (start interval) moves
    let es := (start interval).ends moves
    c.attempts.length = es.length + (if c.loops = [.acquiring] then 1 else 0) ∧
      (∀ k s e : Nat, c.attempts[k]? = some s → es[k]? = some e → s ≤ e) ∧
      ∀ k e s : Nat, es[k]? = some e → c.attempts[k + 1]? = some s → e + interval ≤ s := by
  intro c es
  have h : c.Spaced interval es := .run interval moves
  exact ⟨h.count, h.lasts, h.apart⟩

/-! ### How many attempts there are -/

/-- Every connection is that of an attempt that has ended. -/
theorem announced_le_ends (interval : Nat) (moves : List Move) :
    (run (start interval) moves).announced.length ≤ ((start interval).ends moves).length := by
  induction moves using List.reverseRecOn with
  | nil => exact Nat.le_refl 0
  | append_singleton moves move ih =>
    have hsteady : (run (start interval) moves).Steady interval := .run interval moves
    rw [run_concat, ends_concat]
    generalize run (start interval) moves = c at ih hsteady ⊢
    obtain ⟨l, hl, -⟩ := hsteady.loop
    obtain ⟨ds, hdeeds, hgained⟩ := (stepped hl move).deeds
    have hone : (ds.filterMap ReconnectDeed.announced).length ≤ (c.ended move).length := by
      rcases hgained with ⟨r, ⟨hacq, -, told, rfl⟩, n, -, rfl⟩ | ⟨-, -, hnone⟩
      · have hended : c.ended (.conclude (some r) told) = [c.now] := if_pos hacq
        rw [hended]
        simp [List.filterMap_cons, ReconnectDeed.announced]
      · have hsilent : ds.filterMap ReconnectDeed.announced = [] := by
          apply List.filterMap_eq_nil_iff.mpr
          intro d hd
          cases d with
          | announce r => exact absurd hd (hnone r)
          | attempt | enter => rfl
        rw [hsilent]
        exact Nat.zero_le _
    rw [announced_of_deeds hdeeds, List.length_append, List.length_append]
    omega

theorem announced_le_attempts (interval : Nat) (moves : List Move) :
    (run (start interval) moves).announced.length ≤
      (run (start interval) moves).attempts.length := by
  have hends := announced_le_ends interval moves
  have hcount := (Spaced.run interval moves).count
  omega

/-- An attempt has all the intervals behind the ones before it. -/
theorem Spaced.le_attempt {c : Reconnect} {interval t : Nat} {es : List Nat}
    (h : c.Spaced interval es) (hfirst : ∀ s ∈ c.attempts, t ≤ s) {k s : Nat}
    (hs : c.attempts[k]? = some s) : t + k * interval ≤ s := by
  induction k generalizing s with
  | zero =>
    have hle := hfirst s (List.mem_of_getElem? hs)
    omega
  | succ k ih =>
    have hlt : k + 1 < c.attempts.length := (List.getElem?_eq_some_iff.mp hs).1
    have hcount := h.count
    have hended : k < es.length := by
      split at hcount <;> omega
    have hearlier := ih (List.getElem?_eq_getElem (by omega))
    have hlasts := h.lasts k _ _ (List.getElem?_eq_getElem (by omega))
      (List.getElem?_eq_getElem hended)
    have hapart := h.apart k _ s (List.getElem?_eq_getElem hended) hs
    have hnext : (k + 1) * interval = k * interval + interval := Nat.succ_mul k interval
    omega

/-- A loop that begins at an instant makes one attempt, and one more for each interval that has
passed since. -/
theorem attempts_le {interval : Nat} (hinterval : 0 < interval) (t : Nat) (moves : List Move) :
    let c := run (start interval) (.pass t :: moves)
    c.attempts.length ≤ 1 + (c.now - t) / interval := by
  intro c
  have hspaced : c.Spaced interval ((start interval).ends (.pass t :: moves)) := .run interval _
  have hfirst : ∀ s ∈ c.attempts, t ≤ s := by
    have hbegun : ((start interval).step (.pass t)).Rests t :=
      ⟨.ready, rfl, .elapsed (Nat.le_add_left _ _)⟩
    exact hbegun.noneBefore moves
  rcases Nat.eq_zero_or_pos c.attempts.length with hnone | hsome
  · rw [hnone]
    exact Nat.zero_le _
  · have hlt : c.attempts.length - 1 < c.attempts.length := by omega
    have hlast := hspaced.le_attempt hfirst (List.getElem?_eq_getElem hlt)
    have hpast := hspaced.past _ (List.getElem_mem hlt)
    have hfits : (c.attempts.length - 1) * interval ≤ c.now - t := by omega
    have hdiv := (Nat.le_div_iff_mul_le hinterval).mpr hfits
    omega

/-- The first connection is lost as it is announced. The second one finds the permit that is left of
that. -/
def twiceConnected : List Move :=
  let r : Record := { port := 1, pid := 100 }
  [.turn, .pass 2, .conclude (some r) [.markDisconnected], .pass 3, .turn, .turn,
    .conclude (some r) [], .pass 1]

theorem twiceConnected_apart :
    let moves := twiceConnected ++ [.call .markDisconnected, .pass 2, .turn, .turn]
    let c := run (start 3) moves
    let es := (start 3).ends moves
    (c.attempts = [0, 5, 8] ∧ es = [2, 5]) ∧ 0 ≤ 2 ∧ 2 + 3 ≤ 5 ∧ 5 + 3 ≤ 8 := by
  intro moves c es
  have hattempts : c.attempts = [0, 5, 8] := by decide
  have hes : es = [2, 5] := by decide
  obtain ⟨-, hlasts, hapart⟩ := attempts_apart 3 moves
  refine ⟨⟨hattempts, hes⟩, hlasts 0 0 2 ?_ ?_, hapart 0 2 5 ?_ ?_, hapart 1 5 8 ?_ ?_⟩ <;> decide

/-! ### Losses -/

theorem attempts_of_ready {c : Reconnect} (hl : c.loops = [.ready]) (hgoes : c.stopped = false)
    (hstate : c.state ≠ .connected) : (c.turn 0).attempts = c.attempts ++ [c.now] := by
  have hturn : c.turn 0 = (c.note .attempt).put 0 .acquiring := by
    simp [turn, loopReady_ready hl, hgoes, hstate, hl]
  rw [hturn]
  exact c.note_attempt_attempts

/-- A sleeping loop without a connection attempts again as soon as it wakes up. -/
theorem attempts_of_sleeping {c : Reconnect} {l : Loop} {due wait : Nat} (hl : c.loops = [l])
    (hsleeps : l.Sleeps due) (hgoes : c.stopped = false) (hstate : c.state ≠ .connected)
    (hdue : due ≤ c.now + wait) :
    (c.run [.pass wait, .turn, .turn]).attempts = c.attempts ++ [c.now + wait] := by
  let c' : Reconnect := { c with now := c.now + wait }
  have hwoken : c'.turn 0 = c'.put 0 .ready := turn_of_due hl hsleeps hgoes hdue
  change ((c'.turn 0).turn 0).attempts = _
  rw [hwoken]
  exact attempts_of_ready (by simp [c', put, hl]) hgoes hstate

theorem NoneBefore.le {c : Reconnect} {due s : Nat} (h : c.NoneBefore due) (later : List Move)
    (hattempts : (c.run later).attempts = c.attempts ++ [s]) : due ≤ s :=
  h later s (by simp [hattempts])

/-- While no announcement calls for a loss, no permit is left behind, and the loop stands in line
for each connection. -/
def Attends (c : Reconnect) : Prop :=
  c.stopped = true ∨
    c.permit = false ∧ (c.state = .connected → c.loops = [.parked] ∧ c.waiting = [0])

namespace Attends

variable {c : Reconnect} {interval : Nat}

theorem call (h : c.Attends) (k : Call) : (c.call k).Attends := by
  cases k with
  | stop => exact .inl rfl
  | markDisconnected =>
    change c.markDisconnected.Attends
    by_cases hconn : c.state = .connected
    · rcases h with hstop | ⟨hpermit, hline⟩
      · exact .inl ((c.call_stopped_iff .markDisconnected).mpr (.inl hstop))
      · rw [markDisconnected_of_connected c hconn]
        exact .inr ⟨by simp [hpermit, (hline hconn).2], nofun⟩
    · rw [markDisconnected_of_ne c hconn]
      exact h

theorem turn (h : c.Attends) {l : Loop} (hl : c.loops = [l]) : (c.turn 0).Attends := by
  rcases h with hstop | ⟨hpermit, hline⟩
  · exact .inl ((turn_stopped hl).trans hstop)
  have hawake : c.state = .connected → l = .parked := fun hconn => by
    simpa [hl] using (hline hconn).1
  have ht := turned hl
  generalize c.turn 0 = c' at ht ⊢
  cases ht with
  | idle => exact .inr ⟨hpermit, hline⟩
  | finished _ hstop => exact .inl hstop
  | attempted _ hstate => exact .inr ⟨hpermit, fun hconn => absurd hconn hstate⟩
  | parked _ hstate => cases hawake hstate
  | awoken _ hsleeps =>
    refine .inr ⟨hpermit, fun hconn => ?_⟩
    rcases hsleeps with rfl | rfl <;> cases hawake hconn
  | heard _ hnot =>
    refine .inr ⟨hpermit, fun hconn => ?_⟩
    simp [(hline hconn).2] at hnot

theorem conclude (h : c.Attends) (hsteady : c.Steady interval) (hl : c.loops = [.acquiring])
    (found : Option Record) {told : List Call} (htold : .markDisconnected ∉ told) :
    (c.conclude found told).Attends := by
  by_cases hstop' : (c.settle found told).stopped = true
  · exact .inl ((resume_stopped _ 0).trans hstop')
  rw [settle_stopped_iff hl, not_or, Bool.not_eq_true] at hstop'
  obtain ⟨hgoes, hstops⟩ := hstop'
  rcases h with hstop | ⟨hpermit, hline⟩
  · cases hgoes.symm.trans hstop
  have hstate : c.state ≠ .connected := fun hconn => by simpa [hl] using (hline hconn).1
  cases found with
  | none => exact .inr (by simp [Reconnect.conclude, settle, resume, hgoes, hstate, put, hpermit])
  | some r =>
    have hnone : told = [] := List.eq_nil_iff_forall_not_mem.mpr fun k hk => by
      cases k with
      | markDisconnected => exact htold hk
      | stop => exact hstops (.inr ⟨hl, r, told, rfl, hk⟩)
    have hempty : c.waiting = [] := (hsteady.concluding hl).line
    refine .inr ?_
    simp [Reconnect.conclude, settle, connect, resume, park, enter, note, put, hnone, hgoes,
      hpermit, hl, hempty]

theorem step (h : c.Attends) (hsteady : c.Steady interval) {move : Move}
    (hmove : ¬move.Unsettles) : (c.step move).Attends := by
  cases move with
  | pass elapsed => exact h
  | call k => exact h.call k
  | turn =>
    obtain ⟨l, hl, -⟩ := hsteady.loop
    exact h.turn hl
  | conclude found told =>
    by_cases hacq : c.loops = [.acquiring]
    · rw [step_conclude_of_acquiring hacq]
      exact h.conclude hsteady hacq found fun htold => hmove ⟨found, told, rfl, htold⟩
    · rw [step_conclude_of_ne hacq]
      exact h

theorem run (interval : Nat) {moves : List Move} (hmoves : ∀ move ∈ moves, ¬move.Unsettles) :
    (run (start interval) moves).Attends := by
  induction moves using List.reverseRecOn with
  | nil => exact .inr ⟨rfl, nofun⟩
  | append_singleton moves move ih =>
    rw [run_concat]
    refine (ih fun m hm => hmoves m (List.mem_append_left _ hm)).step (.run interval moves) ?_
    exact hmoves move (by simp)

end Attends

/-- A parked loop waits out the loss it hears of, and so does one that begins its wait at the very
instant of the loss. Of any other wait some part is over by then. -/
theorem Steady.lost_noneBefore_iff {c : Reconnect} {interval : Nat} (h : c.Steady interval)
    (hconn : c.state = .connected) :
    c.markDisconnected.NoneBefore (c.now + interval) ↔
      c.stopped = true ∨ c.loops = [.parked] ∨ c.loops = [.holdingOff (c.now + interval)] ∨
        interval = 0 := by
  obtain ⟨rfl, l, hl, hstands⟩ := h
  constructor
  · intro hnone
    cases hstop : c.stopped with
    | true => exact .inl rfl
    | false =>
      have hat : c.AtOnce c.markDisconnected := .call c .markDisconnected
      have hl' : c.markDisconnected.loops = [l] := (c.call_loops .markDisconnected).trans hl
      have hgoes' : c.markDisconnected.stopped = false := by
        rw [markDisconnected_of_connected c hconn]
        exact hstop
      have hlost : c.markDisconnected.state ≠ .connected := by
        rw [markDisconnected_of_connected c hconn]
        nofun
      refine .inr ?_
      cases hstands with
      | inLine | called => exact .inl hl
      | acquiring _ hstate => exact absurd hconn hstate
      | retrying _ hstate => exact absurd hconn hstate
      | finished _ hstop' => cases hstop.symm.trans hstop'
      | ready =>
        have hle := hnone.le [.turn] (attempts_of_ready hl' hgoes' hlost)
        rw [hat.now] at hle
        exact .inr (.inr (by omega))
      | @holdingOff due _ hdue =>
        have hwait : due ≤ c.markDisconnected.now + (due - c.now) := by rw [hat.now]; omega
        have hle := hnone.le _ (attempts_of_sleeping hl' (.inr rfl) hgoes' hlost hwait)
        rw [hat.now] at hle
        by_cases hfull : due = c.now + c.interval
        · exact .inr (.inl (hfull ▸ hl))
        · exact .inr (.inr (by omega))
  · intro hwhy
    have hrests : c.Rests (c.now + c.interval) := by
      rcases hwhy with hstop | hparked | hasleep | hzero
      · exact ⟨l, hl, .stopped hstop⟩
      · exact ⟨.parked, hparked, .parked (Nat.le_refl _)⟩
      · exact ⟨_, hasleep, .asleep (.inr rfl) (Nat.le_refl _)⟩
      · exact ⟨l, hl, .elapsed (by omega)⟩
    exact (hrests.call .markDisconnected).noneBefore

/-- A loss that is called for while the connection is announced is waited out. One that is called
for later is, exactly if the loop waits in line to hear of it or begins to wait at that instant;
of a wait that is under way only the rest is kept. As long as no announcement calls for a loss, the
loop is in line whenever there is a connection. -/
theorem losses_waited_out (interval : Nat) (moves : List Move) :
    let c := run (start interval) moves
    (c.loops = [.acquiring] → ∀ found told,
        (c.conclude found told).NoneBefore (c.now + interval)) ∧
      (c.state = .connected →
        (c.markDisconnected.NoneBefore (c.now + interval) ↔
          c.stopped = true ∨ c.loops = [.parked] ∨ c.loops = [.holdingOff (c.now + interval)] ∨
            interval = 0) ∧
        (∀ due, c.loops = [.holdingOff due] → c.markDisconnected.NoneBefore due) ∧
        ((∀ move ∈ moves, ¬move.Unsettles) → c.stopped = true ∨ c.loops = [.parked])) := by
  intro c
  have h : c.Steady interval := .run interval moves
  refine ⟨fun hacq found told => ?_, fun hconn => ⟨h.lost_noneBefore_iff hconn, ?_, ?_⟩⟩
  · have hrests := Rests.conclude hacq found told
    rw [h.interval_eq] at hrests
    exact hrests.noneBefore
  · intro due hl
    have hrests : c.Rests due := ⟨_, hl, .asleep (.inr rfl) (Nat.le_refl _)⟩
    exact (hrests.call .markDisconnected).noneBefore
  · intro hmoves
    exact (Attends.run interval hmoves).imp id fun hline => (hline.2 hconn).1

/-- With no loss announced a connection that was there for a while is in line, and its loss is
waited out. -/
theorem plain_loss_waited_out :
    let moves : List Move := [.turn, .conclude (some { port := 1, pid := 100 }) [], .pass 4]
    let c := run (start 3) moves
    (c.state = .connected ∧ (∀ move ∈ moves, ¬move.Unsettles) ∧ c.stopped = false) ∧
      c.loops = [.parked] ∧ c.markDisconnected.NoneBefore 7 := by
  intro moves c
  have hconn : c.state = .connected := by decide
  have hgoes : c.stopped = false := by decide
  have hmoves : ∀ move ∈ moves, ¬move.Unsettles := by simp [moves, Move.Unsettles]
  obtain ⟨hiff, -, hattends⟩ := (losses_waited_out 3 moves).2 hconn
  have hl : c.loops = [.parked] := (hattends hmoves).resolve_left (by simp [c, hgoes])
  exact ⟨⟨hconn, hmoves, hgoes⟩, hl, hiff.mpr (.inr (.inl hl))⟩

/-- The second connection is lost one instant behind its begin, and the next attempt comes two
instants later. -/
theorem second_loss_cut_short :
    let c := run (start 3) twiceConnected
    c.state = .connected ∧ c.now = 6 ∧
      (c.markDisconnected.run [.pass 2, .turn, .turn]).attempts = [0, 5, 8] ∧
      ¬c.markDisconnected.NoneBefore (6 + 3) := by
  intro c
  have hattempts : (c.markDisconnected.run [.pass 2, .turn, .turn]).attempts =
      c.markDisconnected.attempts ++ [8] := by decide
  refine ⟨by decide, by decide, by decide, fun hnone => ?_⟩
  exact absurd (hnone.le _ hattempts) (by decide)

end Reconnect

end Vigil.Link
