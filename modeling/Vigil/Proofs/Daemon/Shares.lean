import Mathlib.Data.List.Induction
import Vigil.Proofs.Daemon.Calls
import Vigil.Rehearsal.World

/-! What one who shares a supervisor does himself, however the others go on meanwhile. A watch that
is told to stop while it waits does nothing any more. -/
namespace Vigil.Daemon

variable {σ : Type}

def Move.isTurnOf (n : Nat) : Move σ → Bool
  | .turn k _ => k == n
  | .call | .watch => false

theorem Move.eq_turn {n : Nat} {move : Move σ} (h : move.isTurnOf n = true) :
    ∃ m, move = .turn n m := by
  cases move with
  | turn k m => exact ⟨m, by rw [eq_of_beq h]⟩
  | call | watch => cases h

namespace Crew

variable {v : Supervisor σ} {c : Crew σ} {n : Nat}

theorem run_singleton (v : Supervisor σ) (c : Crew σ) (move : Move σ) :
    run v c [move] = step v c move := rfl

theorem run_concat (v : Supervisor σ) (c : Crew σ) (moves : List (Move σ)) (move : Move σ) :
    run v c (moves ++ [move]) = step v (run v c moves) move := by
  simp [run, List.foldl_append]

/-- What a move adds to the timeline. -/
def added (v : Supervisor σ) (c : Crew σ) (move : Move σ) : List (Nat × Deed) :=
  (step v c move).state.timeline.drop c.state.timeline.length

/-- What the turns of one of the crew add to the timeline. -/
def share (v : Supervisor σ) (n : Nat) (c : Crew σ) : List (Move σ) → List (Nat × Deed)
  | [] => []
  | move :: rest =>
    (if move.isTurnOf n then added v c move else []) ++ share v n (step v c move) rest

theorem added_of_turn {w : Worker} (h : c.workers[n]? = some w) (m : Moment σ)
    {ds : List (Nat × Deed)}
    (hds : (w.turn v (c.state.meet m) m.cancelled).2.timeline = c.state.timeline ++ ds) :
    added v c (.turn n m) = ds := by
  rw [added, step_turn_of_some h, hds, List.drop_left]

/-- Somebody's stage changes in his own turns only. -/
theorem step_other {w : Worker} (h : c.workers[n]? = some w) {move : Move σ}
    (hmove : move.isTurnOf n = false) : (step v c move).workers[n]? = some w := by
  have hn : n < c.workers.length := (List.getElem?_eq_some_iff.mp h).1
  cases move with
  | call => simpa [step, List.getElem?_append_left hn] using h
  | watch => simpa [step, List.getElem?_append_left hn] using h
  | turn k m =>
    have hkn : k ≠ n := by simpa [Move.isTurnOf] using hmove
    cases hw : c.workers[k]? with
    | none => rwa [step_turn_of_none hw]
    | some other =>
      rw [step_turn_of_some hw]
      simpa [List.getElem?_set_ne hkn] using h

/-- Who comes new is either a caller or a watch that has only been called. -/
theorem step_new (h : c.workers[n]? = none) (move : Move σ) {w : Worker}
    (hw : (step v c move).workers[n]? = some w) : w = .caller .called ∨ w = .watcher .called := by
  have hn : c.workers.length ≤ n := List.getElem?_eq_none_iff.mp h
  cases move with
  | call =>
    have hmem : w ∈ [Worker.caller .called] := by
      simp only [step, List.getElem?_append_right hn] at hw
      exact List.mem_of_getElem? hw
    exact .inl (List.mem_singleton.mp hmem)
  | watch =>
    have hmem : w ∈ [Worker.watcher .called] := by
      simp only [step, List.getElem?_append_right hn] at hw
      exact List.mem_of_getElem? hw
    exact .inr (List.mem_singleton.mp hmem)
  | turn k m =>
    cases hk : c.workers[k]? with
    | none =>
      rw [step_turn_of_none hk, h] at hw
      cases hw
    | some other =>
      have hnone : (step v c (.turn k m)).workers[n]? = none := by
        rw [step_turn_of_some hk]
        simpa using hn
      cases hnone.symm.trans hw

end Crew

/-! ### A watch that is told to stop -/

def Worker.watch? : Worker → Option Watch
  | .watcher w => some w
  | .caller _ => none

theorem Crew.watcher_of_watch {c : Crew σ} {n : Nat} {w : Watch}
    (h : c.workers[n]?.bind Worker.watch? = some w) : c.workers[n]? = some (.watcher w) := by
  obtain ⟨worker, hworker, hwatch⟩ := Option.bind_eq_some_iff.mp h
  cases worker with
  | watcher w' => rw [hworker, Option.some.inj hwatch]
  | caller => cases hwatch

namespace Watch

/-- A wait that is told to stop is over at once, and it leaves everything as it was. -/
theorem turn_stopped (v : Supervisor σ) (s : Supervision σ) {w : Watch} {due : Nat}
    (hdue : w.due? = some due) : w.turn v s true = (.ended .cancelled, s) := by
  cases w with
  | called | ended => cases hdue
  | ticking | polling | coolingDown => simp [turn]

theorem isReady_stopped {w : Watch} {due : Nat} (hdue : w.due? = some due) (now : Nat) :
    w.isReady now true = true := by
  cases w with
  | called | ended => cases hdue
  | ticking | polling | coolingDown => simp [isReady]

end Watch

namespace Crew

variable {v : Supervisor σ} {c : Crew σ} {n : Nat}

/-- A turn in which a watch is told to stop changes nothing but what every turn meets, if it waits
or has been told before. -/
theorem step_stopped {w : Watch} (hw : c.workers[n]? = some (.watcher w))
    (hstop : ∀ s, w.turn v s true = (.ended .cancelled, s)) {m : Moment σ}
    (hm : m.cancelled = true) :
    (step v c (.turn n m)).state = c.state.meet m ∧
      (step v c (.turn n m)).workers[n]? = some (.watcher (.ended .cancelled)) := by
  have hn : n < c.workers.length := (List.getElem?_eq_some_iff.mp hw).1
  have hturn : (Worker.watcher w).turn v (c.state.meet m) m.cancelled =
      (.watcher (.ended .cancelled), c.state.meet m) := by
    simp [Worker.turn, hm, hstop]
  rw [step_turn_of_some hw, hturn]
  exact ⟨rfl, List.getElem?_set_self hn⟩

/-- What is left of a watch after moves in which it is told to stop, and that it adds nothing. -/
theorem run_stopped {later : List (Move σ)}
    (hcancel : ∀ m, .turn n m ∈ later → m.cancelled = true) {w : Watch}
    (hw : c.workers[n]? = some (.watcher w))
    (hstop : ∀ s, w.turn v s true = (.ended .cancelled, s)) :
    (run v c later).workers[n]? =
        some (.watcher (if later.any (·.isTurnOf n) then .ended .cancelled else w)) ∧
      share v n c later = [] := by
  induction later generalizing c w with
  | nil => exact ⟨hw, rfl⟩
  | cons move rest ih =>
    have hrest : ∀ m, .turn n m ∈ rest → m.cancelled = true :=
      fun m hm => hcancel m (List.mem_cons_of_mem _ hm)
    cases hmove : move.isTurnOf n with
    | false =>
      obtain ⟨hstage, hshare⟩ := ih hrest (step_other (v := v) hw hmove) hstop
      exact ⟨by simpa [run, hmove] using hstage, by simpa [share, hmove] using hshare⟩
    | true =>
      obtain ⟨m, rfl⟩ := Move.eq_turn hmove
      obtain ⟨hstate, hover⟩ := step_stopped (v := v) hw hstop (hcancel m List.mem_cons_self)
      obtain ⟨hstage, hshare⟩ := ih hrest hover fun s => rfl
      have hnothing : added v c (.turn n m) = [] := by simp [added, hstate]
      refine ⟨?_, by simp [share, hnothing, hshare]⟩
      simpa [run, hmove] using hstage

end Crew

/-- What becomes of a watch that is told to stop while it waits: between two looks at the daemon,
for the record after a launch, or for a cool-down. It has something to do at once, whenever the wait
would have been over, and its next turn is its last. Neither this one nor a later turn adds a deed
or changes what it finds, however the others go on. So if nobody else has a turn, the session is
the one of the moment in which the watch was told. -/
theorem stopped_watch_does_nothing (v : Supervisor σ) (c : Crew σ) (n : Nat) {w : Watch}
    {due : Nat} (hw : c.workers[n]? = some (.watcher w)) (hdue : w.due? = some due)
    (later : List (Move σ)) (hstop : ∀ m, .turn n m ∈ later → m.cancelled = true) :
    w.isReady c.state.now true = true ∧
      (Crew.run v c later).workers[n]? =
        some (.watcher (if later.any (·.isTurnOf n) then .ended .cancelled else w)) ∧
      Crew.share v n c later = [] ∧
      (∀ before m after, later = before ++ .turn n m :: after →
        (Crew.step v (Crew.run v c before) (.turn n m)).state =
          (Crew.run v c before).state.meet m) ∧
      ((∀ move ∈ later, move.isTurnOf n = true) →
        (Crew.run v c later).state.session = c.state.session ∧
          (Crew.run v c later).state.timeline = c.state.timeline) := by
  have hends : ∀ s : Supervision σ, w.turn v s true = (.ended .cancelled, s) :=
    fun s => Watch.turn_stopped v s hdue
  obtain ⟨hstage, hshare⟩ := Crew.run_stopped hstop hw hends
  have hmeets : ∀ before m after, later = before ++ .turn n m :: after →
      (Crew.step v (Crew.run v c before) (.turn n m)).state =
        (Crew.run v c before).state.meet m := by
    intro before m after heq
    have hbefore : ∀ m', .turn n m' ∈ before → m'.cancelled = true :=
      fun m' hm' => hstop m' (by simp [heq, hm'])
    have hw' := (Crew.run_stopped (v := v) hbefore hw hends).1
    refine (Crew.step_stopped hw' (fun s => ?_) (hstop m (by simp [heq]))).1
    split
    · rfl
    · exact hends s
  refine ⟨Watch.isReady_stopped hdue _, hstage, hshare, hmeets, fun honly => ?_⟩
  -- after any part of the moves, since each of them is a turn of the watch
  have hpart : ∀ before, before <+: later →
      (Crew.run v c before).state.session = c.state.session ∧
        (Crew.run v c before).state.timeline = c.state.timeline := by
    intro before
    induction before using List.reverseRecOn with
    | nil => exact fun _ => ⟨rfl, rfl⟩
    | append_singleton before move ih =>
      rintro ⟨after, heq⟩
      have heq : later = before ++ move :: after := by rw [← heq]; simp
      obtain ⟨m, rfl⟩ := Move.eq_turn (honly move (by simp [heq]))
      obtain ⟨hsession, htimeline⟩ := ih ⟨_, heq.symm⟩
      have hrun : (Crew.run v c (before ++ [.turn n m])).state =
          (Crew.run v c before).state.meet m := by
        rw [Crew.run_concat]
        exact hmeets before m after heq
      rw [hrun]
      exact ⟨hsession, htimeline⟩
  exact hpart later (List.prefix_refl later)

/-- A watch is told to stop halfway to the first look behind its launch, while somebody else calls
and launches too. -/
theorem polling_watch_stopped :
    let v : Supervisor Rehearsal.World := ⟨Rehearsal.World.surroundings, {}⟩
    let before : Rehearsal.World := { record := some { port := 1, pid := 100 }, alive := [100] }
    let dead : Rehearsal.World := { before with alive := [] }
    let c := Crew.run v (.fresh before) [.call, .turn 0 { world := before }, .watch,
      .turn 1 { world := before }, .turn 1 { world := dead, elapsed := 2_000_000_000 }]
    let later : List (Move Rehearsal.World) := [.call, .turn 2 { world := dead },
      .turn 1 { world := dead, elapsed := 50_000_000, cancelled := true }]
    let w : Watch := .polling 100 0 1 2_100_000_000
    c.workers[1]? = some (.watcher w) ∧ w.due? = some 2_100_000_000 ∧
      (∀ m, .turn 1 m ∈ later → m.cancelled = true) ∧ c.state.now = 2_000_000_000 ∧
      (Crew.run v c later).workers[1]? = some (.watcher (.ended .cancelled)) ∧
      Crew.share v 1 c later = [] := by
  intro v before dead c later w
  have hw : c.workers[1]? = some (.watcher w) := Crew.watcher_of_watch (by decide)
  have hdue : w.due? = some 2_100_000_000 := rfl
  have hstop : ∀ m, .turn 1 m ∈ later → m.cancelled = true := by simp [later]
  obtain ⟨-, hover, hshare, -⟩ := stopped_watch_does_nothing v c 1 hw hdue later hstop
  have hnow : c.state.now = 2_000_000_000 := by decide
  exact ⟨hw, hdue, hstop, hnow, hover, hshare⟩

end Vigil.Daemon
