import Vigil.Proofs.Daemon.Crew
import Vigil.Rehearsal.World

/-! Who launches a daemon, and how long a launch is outstanding. Whoever looks for a daemon launches
one at most, when he begins; but nobody waits for what another has launched. -/
namespace Vigil.Daemon

variable {σ : Type}

namespace Supervision

variable (s : Supervision σ)

@[simp] theorem note_launches (d : Deed) :
    (s.note d).launches = s.launches ++ match d with
      | .launch path _ => [(s.now, path)]
      | _ => [] := by
  cases d <;> simp [launches, note]

@[simp] theorem tell_launches (n : Notice) : (s.tell n).launches = s.launches := by
  simp [tell]

@[simp] theorem write_launches (session : Session) : (s.write session).launches = s.launches := by
  have hsession : ({ s with session } : Supervision σ).launches = s.launches := rfl
  simp [write, hsession]

@[simp] theorem within_launches (world : σ) : (s.within world).launches = s.launches := rfl

end Supervision

/-- The look that a search waits for after a launch, and when it is due. -/
def Supervisor.Progress.wait? : Supervisor.Progress → Option (Nat × Nat)
  | polling look due => some (look, due)
  | _ => none

namespace Supervisor

variable (v : Supervisor σ) (s : Supervision σ)

/-- The executable that a search starts: none if there is a live daemon. -/
def sought (world : σ) : Option String :=
  if (v.surroundings.live world).isSome then none else v.surroundings.find world

/-- The launches of a search that begins. -/
def started : List (Nat × String) := (v.sought s.world).toList.map fun path => (s.now, path)

theorem await_wait (n : Nat) :
    (v.await s n).wait?.isSome = true ↔ n ≤ v.policies.start.maxAttempts := by
  unfold await
  by_cases hspent : v.policies.start.maxAttempts < n
  · simp [hspent, Progress.wait?]
  · simp [hspent, Progress.wait?, Nat.not_lt.mp hspent]

theorem searching_launches : (searching s).launches = s.launches := by
  unfold searching
  split <;> simp

theorem begin_launches : (v.begin s).2.launches = s.launches ++ v.started s := by
  have hb := v.begun s
  generalize (v.begin s).1 = p, (v.begin s).2 = s' at hb
  cases hb with
  | found r hlive => simp [started, sought, hlive]
  | notFound hlive hfind => simp [started, sought, hlive, hfind, searching_launches]
  | refused path world reason hlive hfind =>
    simp [started, sought, hlive, hfind, searching_launches]
  | launched path world hlive hfind =>
    simp [started, sought, hlive, hfind, searching_launches]

/-- A search that begins comes to wait exactly if it has started a daemon and may look for it. -/
theorem begin_wait : (v.begin s).1.wait?.isSome = true ↔ 0 < v.policies.start.maxAttempts ∧
    ∃ path, v.sought s.world = some path ∧ (v.surroundings.launch s.world path).2 = none := by
  have hb := v.begun s
  generalize (v.begin s).1 = p, (v.begin s).2 = s' at hb
  cases hb with
  | found r hlive => simp [Progress.wait?, sought, hlive]
  | notFound hlive hfind => simp [Progress.wait?, sought, hlive, hfind]
  | refused path world reason hlive hfind hlaunch =>
    simp [Progress.wait?, sought, hlive, hfind, hlaunch]
  | launched path world hlive hfind hlaunch =>
    rw [await_wait]
    simp [sought, hlive, hfind, hlaunch, Nat.succ_le_iff]

theorem look_launches (n : Nat) : (v.look s n).2.launches = s.launches := by
  have hl := v.looked s n
  generalize (v.look s n).1 = p, (v.look s n).2 = s' at hl
  cases hl <;> simp

/-- A search waits on unless it finds a daemon or has looked often enough. -/
theorem look_wait (n : Nat) : (v.look s n).1.wait?.isSome = true ↔
    (v.surroundings.live s.world).isSome = false ∧ n < v.policies.start.maxAttempts := by
  have hl := v.looked s n
  generalize (v.look s n).1 = p, (v.look s n).2 = s' at hl
  cases hl with
  | found r hlive => simp [Progress.wait?, hlive]
  | missing hlive =>
    rw [await_wait]
    exact ⟨fun hmore => ⟨by rw [hlive]; rfl, hmore⟩, fun h => h.2⟩

end Supervisor

namespace Worker

/-- The look that somebody who has launched a daemon waits for, and when it is due. -/
def wait? : Worker → Option (Nat × Nat)
  | caller (.polling look due) | watcher (.polling _ _ look due) => some (look, due)
  | _ => none

theorem wait_due {w : Watch} {look due : Nat} (h : (watcher w).wait? = some (look, due)) :
    w.due? = some due := by
  cases w <;> cases h
  rfl

/-- In this turn somebody begins to look for a daemon. -/
inductive Begins (v : Supervisor σ) (s : Supervision σ) : Bool → Worker → Prop where
  | call (cancelled : Bool) : Begins v s cancelled (.caller .called)
  | crash {w : Watch} {pid : UInt32} {left : Record} (h : w.Reports v s false pid left) :
      Begins v s false (.watcher w)
  | retry (pid : UInt32) (k : Nat) {due : Nat} {left : Record} (hdue : due ≤ s.now)
      (hleft : v.surroundings.left s.world = some left) :
      Begins v s false (.watcher (.coolingDown pid k due))

end Worker

theorem Ensure.follow_wait (s : Supervision σ) (p : Supervisor.Progress) :
    (Worker.caller (Ensure.follow s p).1).wait? = p.wait? := by
  cases p <;> rfl

theorem Ensure.follow_launches (s : Supervision σ) (p : Supervisor.Progress) :
    (Ensure.follow s p).2.launches = s.launches := by
  cases p <;> simp [Ensure.follow]

namespace Watch

variable (v : Supervisor σ) (s : Supervision σ) (pid : UInt32) (k : Nat)

theorem follow_wait (p : Supervisor.Progress) :
    (Worker.watcher (follow v s pid k p).1).wait? = p.wait? := by
  cases p with
  | found | polling => rfl
  | failed e =>
    unfold follow
    cases v.policies.restart.delayAfter (k + 1) <;> rfl

theorem follow_launches (p : Supervisor.Progress) :
    (follow v s pid k p).2.launches = s.launches := by
  cases p with
  | found r => simp [follow, rest]
  | polling => rfl
  | failed e =>
    unfold follow
    cases v.policies.restart.delayAfter (k + 1) <;> simp

theorem restart_launches : (restart v s pid k).2.launches = s.launches ++ v.started s :=
  (follow_launches v _ pid k _).trans (v.begin_launches s)

theorem restart_wait :
    (Worker.watcher (restart v s pid k).1).wait?.isSome = true ↔
      0 < v.policies.start.maxAttempts ∧ ∃ path, v.sought s.world = some path ∧
        (v.surroundings.launch s.world path).2 = none := by
  rw [← v.begin_wait s, ← follow_wait v (v.begin s).2 pid k]
  rfl

end Watch

namespace Worker

/-- What a turn means for launches: one who begins launches what he has sought and then waits for
it, if it has started; one who waits launches nothing, until he stops. -/
inductive Launched (v : Supervisor σ) (s : Supervision σ) (cancelled : Bool) (w w' : Worker)
    (s' : Supervision σ) : Prop where
  | begun (hbegins : w.Begins v s cancelled) (hno : w.wait? = none)
      (hlaunches : s'.launches = s.launches ++ v.started s)
      (hwait : w'.wait?.isSome = true ↔ 0 < v.policies.start.maxAttempts ∧
        ∃ path, v.sought s.world = some path ∧ (v.surroundings.launch s.world path).2 = none)
  | idle (hbegins : ¬ w.Begins v s cancelled) (hno : w.wait? = none)
      (hlaunches : s'.launches = s.launches) (hwait : w'.wait? = none)
  | waited (hbegins : ¬ w.Begins v s cancelled) (look due : Nat) (hw : w.wait? = some (look, due))
      (hlaunches : s'.launches = s.launches)
      (hwait : w'.wait?.isSome = true ↔ cancelled = false ∧ (due ≤ s.now →
        (v.surroundings.live s.world).isSome = false ∧ look < v.policies.start.maxAttempts))

variable (v : Supervisor σ) (s : Supervision σ)

theorem caller_launched (cancelled : Bool) (e : Ensure) :
    Launched v s cancelled (.caller e) (.caller (e.turn v s cancelled).1)
      (e.turn v s cancelled).2 := by
  have ht := e.turned v s cancelled
  generalize e.turn v s cancelled = p at ht ⊢
  cases ht with
  | called =>
    refine .begun (.call cancelled) rfl ?_ ?_
    · exact (Ensure.follow_launches _ _).trans (v.begin_launches s)
    · rw [Ensure.follow_wait]
      exact v.begin_wait s
  | done => exact .idle (by rintro ⟨⟩) rfl rfl rfl
  | stopped look due =>
    refine .waited (by rintro ⟨⟩) look due rfl (Ensure.follow_launches _ _) ?_
    rw [Ensure.follow_wait]
    simp [Supervisor.Progress.wait?]
  | early look due hnow =>
    refine .waited (by rintro ⟨⟩) look due rfl rfl ?_
    simp [wait?, Nat.not_le.mpr hnow]
  | looked look due hdue =>
    refine .waited (by rintro ⟨⟩) look due rfl ?_ ?_
    · exact (Ensure.follow_launches _ _).trans (v.look_launches s look)
    · rw [Ensure.follow_wait, v.look_wait]
      simp [hdue]

theorem watcher_launched (cancelled : Bool) (w : Watch) :
    Launched v s cancelled (.watcher w) (.watcher (w.turn v s cancelled).1)
      (w.turn v s cancelled).2 := by
  by_cases hbegins : (Worker.watcher w).Begins v s cancelled
  · cases hbegins with
    | @crash _ pid left h =>
      rw [Watch.turn_of_reports v s h]
      let s' := (s.sawCrash pid left).reportCrash pid
      refine .begun (.crash h) ?_ ?_ (Watch.restart_wait v s' pid 0)
      · obtain ⟨due, rfl, -⟩ := h.ticking
        rfl
      · rw [Watch.restart_launches]
        simp [Supervision.sawCrash, Supervision.reportCrash, Supervisor.started]
    | @retry pid k due left hdue hleft =>
      rw [Watch.turn_of_left v s hdue hleft]
      let s' := s.note (.readLeft (some left))
      refine .begun (.retry pid k hdue hleft) rfl ?_ (Watch.restart_wait v s' pid k)
      rw [Watch.restart_launches]
      simp [Supervisor.started]
  · have ht := w.turned v s cancelled
    generalize w.turn v s cancelled = p at ht ⊢
    cases ht with
    | called => exact .idle hbegins rfl rfl rfl
    | ended => exact .idle hbegins rfl rfl rfl
    | stopped hdue =>
      cases hw : (Worker.watcher w).wait? with
      | none => exact .idle hbegins hw rfl rfl
      | some wait => exact .waited hbegins wait.1 wait.2 hw rfl (by simp [wait?])
    | @early _ due hdue hnow =>
      cases hw : (Worker.watcher w).wait? with
      | none => exact .idle hbegins hw rfl hw
      | some wait =>
        have heq : wait.2 = due := Option.some.inj ((wait_due hw).symm.trans hdue)
        have hlater : ¬ wait.2 ≤ s.now := by omega
        exact .waited hbegins wait.1 wait.2 hw rfl (by simp [hw, hlater])
    | notRunning => exact .idle hbegins rfl rfl rfl
    | alive hdue pid => exact .idle hbegins rfl (by simp [Watch.rest]) rfl
    | gone hdue pid => exact .idle hbegins rfl (by simp [Watch.shutdown]) rfl
    | crashed h => exact absurd (.crash h) hbegins
    | @looked pid k look due hdue =>
      refine .waited hbegins look due rfl ?_ ?_
      · exact (Watch.follow_launches v _ pid k _).trans (v.look_launches s look)
      · rw [Watch.follow_wait, v.look_wait]
        simp [hdue]
    | goneMeanwhile pid k => exact .idle hbegins rfl (by simp [Watch.shutdown]) rfl
    | retried pid k hdue left hleft => exact absurd (.retry pid k hdue hleft) hbegins

theorem launched (cancelled : Bool) (w : Worker) :
    Launched v s cancelled w (w.turn v s cancelled).1 (w.turn v s cancelled).2 := by
  cases w with
  | caller e => exact caller_launched v s cancelled e
  | watcher w => exact watcher_launched v s cancelled w

end Worker

namespace Crew

/-- The look that one of a crew waits for, and when it is due. -/
def wait? (c : Crew σ) (n : Nat) : Option (Nat × Nat) := c.workers[n]?.bind Worker.wait?

/-- Somebody has launched a daemon and waits for its record. -/
def Outstanding (c : Crew σ) (n : Nat) : Prop := (c.wait? n).isSome = true

instance (c : Crew σ) (n : Nat) : Decidable (c.Outstanding n) := by
  unfold Outstanding
  infer_instance

def Begins (v : Supervisor σ) (c : Crew σ) (n : Nat) (m : Moment σ) : Prop :=
  ∃ w, c.workers[n]? = some w ∧ w.Begins v (c.state.meet m) m.cancelled

/-- What a turn means for the launches of a crew. -/
structure Launching (v : Supervisor σ) (c : Crew σ) (n : Nat) (m : Moment σ) (c' : Crew σ) :
    Prop where
  /-- Whoever begins launches what he seeks, no matter what is outstanding. -/
  begun : c.Begins v n m → c'.state.launches = c.state.launches ++ v.started (c.state.meet m)
  /-- Nothing else launches. -/
  idle : ¬ c.Begins v n m → c'.state.launches = c.state.launches
  /-- Nobody begins while his launch is outstanding. -/
  waiting : c.Outstanding n → ¬ c.Begins v n m
  /-- A launch is outstanding once it has started a daemon, if that may be looked for at all. -/
  launched : c.Begins v n m → (c'.Outstanding n ↔ 0 < v.policies.start.maxAttempts ∧
    ∃ path, v.sought m.world = some path ∧ (v.surroundings.launch m.world path).2 = none)
  /-- It is, until it is told to stop, a live daemon is found or the looks are used up. -/
  waited : ∀ look due, c.wait? n = some (look, due) →
    (c'.Outstanding n ↔ m.cancelled = false ∧ (due ≤ c.state.now + m.elapsed →
      (v.surroundings.live m.world).isSome = false ∧ look < v.policies.start.maxAttempts))
  rested : ¬ c.Outstanding n → ¬ c.Begins v n m → ¬ c'.Outstanding n
  others : ∀ k, k ≠ n → c'.wait? k = c.wait? k

variable {v : Supervisor σ} {c : Crew σ}

theorem launching_of_none {n : Nat} {m : Moment σ} (hw : c.workers[n]? = none) :
    c.Launching v n m c := by
  have hwait : c.wait? n = none := by simp [wait?, hw]
  have hno : ¬ c.Outstanding n := by simp [Outstanding, hwait]
  have hbegins : ¬ c.Begins v n m := by
    rintro ⟨w, hsome, -⟩
    cases hw.symm.trans hsome
  constructor
  · exact fun h => absurd h hbegins
  · exact fun _ => rfl
  · exact fun h => absurd h hno
  · exact fun h => absurd h hbegins
  · intro look due h
    cases hwait.symm.trans h
  · exact fun _ _ => hno
  · exact fun _ _ => rfl

theorem launching_of_some {n : Nat} {m : Moment σ} {w w' : Worker} {s' : Supervision σ}
    (hw : c.workers[n]? = some w)
    (hl : w.Launched v (c.state.meet m) m.cancelled w' s') :
    c.Launching v n m { state := s', workers := c.workers.set n w' } := by
  have hn : n < c.workers.length := (List.getElem?_eq_some_iff.mp hw).1
  have hwait : c.wait? n = w.wait? := by simp [wait?, hw]
  have hout' : Outstanding { state := s', workers := c.workers.set n w' } n ↔
      w'.wait?.isSome = true := by
    simp [Outstanding, wait?, hn]
  have hbegins : c.Begins v n m ↔ w.Begins v (c.state.meet m) m.cancelled := by
    simp [Begins, hw]
  have hothers : ∀ k, k ≠ n →
      wait? { state := s', workers := c.workers.set n w' } k = c.wait? k := by
    intro k hk
    simp [wait?, List.getElem?_set_ne hk.symm]
  cases hl with
  | begun hb hno hlaunches hstarted =>
    have hb : c.Begins v n m := hbegins.mpr hb
    have hrest : ¬ c.Outstanding n := by simp [Outstanding, hwait, hno]
    refine ⟨fun _ => hlaunches, fun h => absurd hb h, fun h => absurd h hrest,
      fun _ => hout'.trans hstarted, ?_, fun _ h => absurd hb h, hothers⟩
    intro look due h
    cases hno.symm.trans (hwait.symm.trans h)
  | idle hb hno hlaunches hnone =>
    have hb : ¬ c.Begins v n m := mt hbegins.mp hb
    have hrest : ¬ c.Outstanding n := by simp [Outstanding, hwait, hno]
    refine ⟨fun h => absurd h hb, fun _ => hlaunches, fun h => absurd h hrest,
      fun h => absurd h hb, ?_, fun _ _ => ?_, hothers⟩
    · intro look due h
      cases hno.symm.trans (hwait.symm.trans h)
    · rw [hout', hnone]
      simp
  | waited hb look due hk hlaunches hgoes =>
    have hb : ¬ c.Begins v n m := mt hbegins.mp hb
    have hout : c.Outstanding n := by simp [Outstanding, hwait, hk]
    refine ⟨fun h => absurd h hb, fun _ => hlaunches, fun _ => hb, fun h => absurd h hb, ?_,
      fun h => absurd hout h, hothers⟩
    intro look' due' h
    obtain ⟨rfl, rfl⟩ : look = look' ∧ due = due' := by
      simpa [hwait, hk] using h
    exact hout'.trans hgoes

theorem launching (v : Supervisor σ) (c : Crew σ) (n : Nat) (m : Moment σ) :
    c.Launching v n m (step v c (.turn n m)) := by
  cases hw : c.workers[n]? with
  | none =>
    rw [step_turn_of_none hw]
    exact launching_of_none hw
  | some w =>
    rw [step_turn_of_some hw]
    exact launching_of_some hw (w.launched v (c.state.meet m) m.cancelled)

/-- Somebody new has nothing outstanding. -/
theorem wait_append {w : Worker} (hw : w.wait? = none) (c : Crew σ) (k : Nat) :
    wait? { c with workers := c.workers ++ [w] } k = c.wait? k := by
  unfold wait?
  rcases Nat.lt_trichotomy k c.workers.length with hlt | heq | hgt
  · rw [List.getElem?_append_left hlt]
  · simp [heq, hw]
  · rw [List.getElem?_eq_none (by simp; omega), List.getElem?_eq_none (by omega)]

/-- Nobody who begins to look for a daemon has to launch one while a launch is outstanding. -/
def Apart (v : Supervisor σ) : Crew σ → List (Move σ) → Prop
  | _, [] => True
  | c, move :: rest =>
    (∀ n m, move = .turn n m → c.Begins v n m → (v.sought m.world).isSome = true →
      ∀ k, ¬ c.Outstanding k) ∧ Apart v (step v c move) rest

/-- Nothing is outstanding while nobody waits. -/
theorem not_outstanding (h : c.workers.all (·.wait?.isNone) = true) (k : Nat) :
    ¬ c.Outstanding k := by
  unfold Outstanding wait?
  cases hw : c.workers[k]? with
  | none => simp
  | some w =>
    have hnone := List.all_eq_true.mp h w (List.mem_of_getElem? hw)
    simpa using hnone

/-- One launch is outstanding at most. -/
def Solo (c : Crew σ) : Prop := ∀ i j, c.Outstanding i → c.Outstanding j → i = j

theorem Solo.turn (h : c.Solo) {n : Nat} {m : Moment σ} {c' : Crew σ}
    (hl : c.Launching v n m c') (hapart : c.Begins v n m → (v.sought m.world).isSome = true →
      ∀ k, ¬ c.Outstanding k) : c'.Solo := by
  have hother {k : Nat} (hk : k ≠ n) (hout : c'.Outstanding k) : c.Outstanding k := by
    rwa [Outstanding, ← hl.others k hk]
  -- the one who has had the turn and somebody else cannot both wait
  have hnot {k : Nat} (hk : k ≠ n) (hout : c'.Outstanding k) : ¬ c'.Outstanding n := by
    intro hn
    have hbefore : ¬ c.Outstanding n := fun hb => hk (h k n (hother hk hout) hb)
    by_cases hbegins : c.Begins v n m
    · obtain ⟨-, path, hsought, -⟩ := (hl.launched hbegins).mp hn
      exact hapart hbegins (by rw [hsought]; rfl) k (hother hk hout)
    · exact hl.rested hbefore hbegins hn
  intro i j hi hj
  by_cases hin : i = n
  · by_cases hjn : j = n
    · rw [hin, hjn]
    · exact absurd (hin ▸ hi) (hnot hjn hj)
  · by_cases hjn : j = n
    · exact absurd (hjn ▸ hj) (hnot hin hi)
    · exact h i j (hother hin hi) (hother hjn hj)

theorem Solo.append (h : c.Solo) {w : Worker} (hw : w.wait? = none) :
    Solo { c with workers := c.workers ++ [w] } := by
  intro i j hi hj
  rw [Outstanding, wait_append hw] at hi hj
  exact h i j hi hj

theorem Solo.run (h : c.Solo) {moves : List (Move σ)} (hapart : c.Apart v moves) :
    (Crew.run v c moves).Solo := by
  induction moves generalizing c with
  | nil => exact h
  | cons move rest ih =>
    obtain ⟨hfirst, hrest⟩ := hapart
    refine ih ?_ hrest
    cases move with
    | call => exact h.append rfl
    | watch => exact h.append rfl
    | turn n m => exact h.turn (launching v c n m) (hfirst n m rfl)

end Crew

/-- However calls and watches that share a supervisor take turns, each search for a daemon launches
at most once, in the turn in which it begins, and exactly if that turn finds no live daemon but an
executable. A launch that started a daemon is outstanding until its search ends, and meanwhile that
search launches nothing. But nothing makes a search wait for the launch of another: one launch is
outstanding at most, as long as no search has to launch while one is. -/
theorem launches_outstanding (v : Supervisor σ) (world : σ) (moves : List (Move σ)) :
    let c := Crew.run v (.fresh world) moves
    (∀ n m, c.Launching v n m (Crew.step v c (.turn n m))) ∧
      (∀ move, (∀ n m, move ≠ .turn n m) → (Crew.step v c move).state = c.state ∧
        ∀ n, (Crew.step v c move).wait? n = c.wait? n) ∧
      (Crew.Apart v (.fresh world) moves → c.Solo) := by
  intro c
  refine ⟨Crew.launching v c, ?_, Crew.Solo.run ?_⟩
  · intro move hmove
    cases move with
    | call => exact ⟨rfl, Crew.wait_append rfl c⟩
    | watch => exact ⟨rfl, Crew.wait_append rfl c⟩
    | turn n m => exact absurd rfl (hmove n m)
  · intro i j hi
    simp [Crew.Outstanding, Crew.wait?, Crew.fresh] at hi

/-- A call that finds a daemon and a watch that launches the next one keep apart. -/
theorem launched_apart :
    let v : Supervisor Rehearsal.World := ⟨Rehearsal.World.surroundings, {}⟩
    let before : Rehearsal.World := { record := some { port := 1, pid := 100 }, alive := [100] }
    let after : Rehearsal.World := { before with alive := [] }
    let moves : List (Move Rehearsal.World) := [.call, .turn 0 { world := before }, .watch,
      .turn 1 { world := before }, .turn 1 { world := after, elapsed := 2_000_000_000 }, .call,
      .turn 2 { world := before }]
    Crew.Apart v (.fresh before) moves ∧ (Crew.run v (.fresh before) moves).Outstanding 1 ∧
      (Crew.run v (.fresh before) moves).Solo := by
  intro v before after moves
  have hlive : ¬ (v.sought before).isSome = true := by decide
  have hapart : Crew.Apart v (.fresh before) moves := by
    refine ⟨?_, ?_, ?_, ?_, ?_, ?_, ?_, trivial⟩
    · rintro n m ⟨⟩
    · rintro n m ⟨⟩ - hs
      exact absurd hs hlive
    · rintro n m ⟨⟩
    · rintro n m ⟨⟩ - hs
      exact absurd hs hlive
    · rintro n m ⟨⟩ - -
      exact Crew.not_outstanding (by decide)
    · rintro n m ⟨⟩
    · rintro n m ⟨⟩ - hs
      exact absurd hs hlive
  exact ⟨hapart, by decide, (launches_outstanding v before moves).2.2 hapart⟩

/-- The watch of a daemon that has died has launched another and waits for it. A call does not: it
launches one more, and both launches are outstanding. -/
theorem launched_side_by_side :
    let v : Supervisor Rehearsal.World := ⟨Rehearsal.World.surroundings, {}⟩
    let before : Rehearsal.World := { record := some { port := 1, pid := 100 }, alive := [100] }
    let after : Rehearsal.World := { before with alive := [] }
    let c := Crew.run v (.fresh before) [.call, .turn 0 { world := before }, .watch,
      .turn 1 { world := before }, .turn 1 { world := after, elapsed := 2_000_000_000 }, .call]
    let c' := Crew.step v c (.turn 2 { world := after, elapsed := 50_000_000 })
    c.Outstanding 1 ∧ c.state.launches = [(2_000_000_000, "/opt/watchfired")] ∧
      c'.Outstanding 1 ∧ c'.Outstanding 2 ∧
      c'.state.launches =
        [(2_000_000_000, "/opt/watchfired"), (2_050_000_000, "/opt/watchfired")] := by
  decide

end Vigil.Daemon
