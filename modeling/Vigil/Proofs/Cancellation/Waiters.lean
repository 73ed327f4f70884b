import Vigil.Proofs.Cancellation.Families

/-! Tasks that wait on tokens. Whatever the order of their turns, once none of them can go on the
ones that are done are those whose token is cancelled, and none of them is done before that. -/
namespace Vigil.Tokens

/-- How far a task has come that waits for a token to be cancelled. -/
inductive Stage where
  /-- It has not looked at the token yet. -/
  | begun
  | asleep
  /-- Its sleep was ended, and it has not looked at the token since. -/
  | roused
  | done
deriving DecidableEq

def Stage.isReady : Stage → Bool
  | begun | roused => true
  | asleep | done => false

structure Waiter where
  token : Nat
  stage : Stage
deriving DecidableEq

namespace Waiter

/-- Who can go on looks at the token: either that is all it waited for, or it goes to sleep. -/
def look (x : Waiter) (cancelled : Bool) : Waiter :=
  if x.stage.isReady then { x with stage := if cancelled then .done else .asleep } else x

def rouse (x : Waiter) : Waiter := if x.stage = .asleep then { x with stage := .roused } else x

variable {x : Waiter} {ts : Tokens}

@[simp] theorem look_token (x : Waiter) (cancelled : Bool) :
    (x.look cancelled).token = x.token := by
  unfold look
  split <;> rfl

@[simp] theorem rouse_token (x : Waiter) : x.rouse.token = x.token := by
  unfold rouse
  split <;> rfl

theorem look_not_ready (x : Waiter) (cancelled : Bool) :
    (x.look cancelled).stage.isReady = false := by
  unfold look
  split
  · cases cancelled <;> rfl
  · next h => simpa using h

/-- A task sleeps only while its token is not cancelled, and is done only once it is. -/
structure Heeds (x : Waiter) (ts : Tokens) : Prop where
  asleep : x.stage = .asleep → ts.isCancelled x.token = false
  done : x.stage = .done → ts.isCancelled x.token = true

namespace Heeds

theorem look (h : x.Heeds ts) : (x.look (ts.isCancelled x.token)).Heeds ts := by
  unfold Waiter.look
  split
  · cases hcancelled : ts.isCancelled x.token with
    | false => exact ⟨fun _ => hcancelled, nofun⟩
    | true => exact ⟨nofun, fun _ => hcancelled⟩
  · exact h

/-- Whoever is roused by a cancellation does not sleep through it. -/
theorem rouse (h : ts.isCancelled x.token = true) : x.rouse.Heeds ts := by
  unfold Waiter.rouse
  split
  · exact ⟨nofun, nofun⟩
  · next hawake => exact ⟨fun hasleep => absurd hasleep hawake, fun _ => h⟩

theorem of_eq {ts' : Tokens} (h : x.Heeds ts)
    (hsame : ts'.isCancelled x.token = ts.isCancelled x.token) : x.Heeds ts' :=
  ⟨fun hasleep => hsame.trans (h.asleep hasleep), fun hdone => hsame.trans (h.done hdone)⟩

/-- At rest a task is done exactly if its token is cancelled. -/
theorem done_iff (h : x.Heeds ts) (hrest : x.stage.isReady = false) :
    x.stage = .done ↔ ts.isCancelled x.token = true := by
  refine ⟨h.done, fun hcancelled => ?_⟩
  cases hstage : x.stage with
  | done => rfl
  | asleep => exact absurd ((h.asleep hstage).symm.trans hcancelled) Bool.false_ne_true
  | begun | roused => exact nomatch (hstage ▸ hrest)

end Heeds

end Waiter

/-- Tokens and the tasks that wait on them, in the order they began. -/
structure Waiting where
  tokens : Tokens := {}
  waiters : List Waiter := []

namespace Waiting

/-- A task that begins to wait is not woken by a cancellation that came before; it finds that out by
its own first look. -/
def step (w : Waiting) (m : Move) : Waiting where
  tokens := w.tokens.step m
  waiters := match m with
    | .new | .clone _ => w.waiters
    | .cancel t => w.waiters.map fun x =>
      if w.tokens.familyOf x.token = w.tokens.familyOf t then x.rouse else x
    | .wait t => w.waiters ++ [⟨t, .begun⟩]
    | .turn n => w.waiters.modify n fun x => x.look (w.tokens.isCancelled x.token)

def run (w : Waiting) (moves : List Move) : Waiting := moves.foldl step w

/-- No task can go on. -/
def Settled (w : Waiting) : Prop := ∀ x ∈ w.waiters, x.stage.isReady = false

instance (w : Waiting) : Decidable w.Settled :=
  inferInstanceAs (Decidable (∀ x ∈ w.waiters, x.stage.isReady = false))

variable {w : Waiting} {moves : List Move} {m : Move}

theorem run_append (w : Waiting) (front behind : List Move) :
    w.run (front ++ behind) = (w.run front).run behind := List.foldl_append

/-- In its turn a task looks at its token, and no other task does. -/
theorem getElem?_turn (w : Waiting) (n k : Nat) : (w.step (.turn n)).waiters[k]? =
    w.waiters[k]?.map fun x => if n = k then x.look (w.tokens.isCancelled x.token) else x := by
  simp only [step, List.getElem?_modify]
  split
  · rfl
  · rfl

/-- Tokens are as the moves say, there is one task for each wait, and no task sleeps through a
cancellation or is done without one. -/
structure Attended (moves : List Move) (w : Waiting) : Prop where
  sound : Sound moves w.tokens
  waited : w.waiters.map Waiter.token = waits moves
  heeds : ∀ x ∈ w.waiters, x.Heeds w.tokens

namespace Attended

theorem lt_of_mem (h : Attended moves w) {x : Waiter} (hx : x ∈ w.waiters) :
    x.token < w.tokens.families.length := by
  refine h.sound.lt_of_mem_waits ?_
  rw [← h.waited]
  exact List.mem_map_of_mem hx

theorem waited_step (h : Attended moves w) :
    (w.step m).waiters.map Waiter.token = waits (moves ++ [m]) := by
  rw [waits_concat, ← h.waited]
  cases m with
  | new | clone => exact (List.append_nil _).symm
  | wait t => exact List.map_append
  | cancel t =>
    simp only [step, Move.waited?, Option.toList_none, List.append_nil, List.map_map]
    refine List.map_congr_left fun x _ => ?_
    rw [Function.comp_apply]
    split
    · exact x.rouse_token
    · rfl
  | turn n =>
    refine List.ext_getElem? fun k => ?_
    rw [List.getElem?_map, getElem?_turn, Option.map_map]
    simp only [Move.waited?, Option.toList_none, List.append_nil, List.getElem?_map]
    congr 1
    funext x
    rw [Function.comp_apply]
    split
    · exact x.look_token _
    · rfl

theorem heeds_step (h : Attended moves w)
    (hm : ∀ t, m.token? = some t → t < w.tokens.families.length) :
    ∀ x ∈ (w.step m).waiters, x.Heeds (w.step m).tokens := by
  have hkept {x : Waiter} (hx : x ∈ w.waiters) (hne : ∀ t, m ≠ .cancel t) :
      x.Heeds (w.tokens.step m) :=
    (h.heeds x hx).of_eq (isCancelled_step_of_ne (h.lt_of_mem hx) hne)
  cases m with
  | new | clone => exact fun x hx => hkept hx nofun
  | wait t =>
    intro x hx
    obtain hx | hx := List.mem_append.mp hx
    · exact hkept hx nofun
    · rw [List.mem_singleton.mp hx]
      exact ⟨nofun, nofun⟩
  | cancel t =>
    intro x hx
    obtain ⟨x, hold, rfl⟩ := List.mem_map.mp hx
    have hlt := h.lt_of_mem hold
    have hbound := h.sound.bounded t (hm t rfl)
    split
    · next hsame => exact .rouse (isCancelled_cancel_of_eq hlt hbound hsame.symm)
    · next hother =>
      exact (h.heeds x hold).of_eq (isCancelled_cancel_of_ne hlt hbound (Ne.symm hother))
  | turn n =>
    intro x hx
    obtain ⟨k, hk⟩ := List.mem_iff_getElem?.mp hx
    rw [getElem?_turn] at hk
    obtain ⟨x, hold, rfl⟩ := Option.map_eq_some_iff.mp hk
    have hheeds := h.heeds x (List.mem_of_getElem? hold)
    split
    · exact hheeds.look
    · exact hheeds

theorem step (h : Attended moves w)
    (hm : ∀ t, m.token? = some t → t < w.tokens.families.length) :
    Attended (moves ++ [m]) (w.step m) :=
  ⟨h.sound.step hm, h.waited_step, h.heeds_step hm⟩

end Attended

theorem attended_run (h : Lawful 1 moves) : Attended moves (({} : Waiting).run moves) := by
  induction moves using List.reverseRecOn with
  | nil => exact ⟨.fresh, rfl, nofun⟩
  | append_singleton moves m ih =>
    obtain ⟨hmoves, hm⟩ := lawful_last h
    have hattended := ih hmoves
    rw [run_append]
    exact hattended.step fun t ht => by rw [hattended.sound.length]; exact hm t ht

/-! ### Coming to rest -/

/-- Who can still go on after some turns had none of them. -/
theorem ready_of_turns {turns : List Nat} {k : Nat} {x : Waiter}
    (hx : (w.run (turns.map .turn)).waiters[k]? = some x) (hready : x.stage.isReady = true) :
    w.waiters[k]? = some x ∧ k ∉ turns := by
  induction turns using List.reverseRecOn generalizing x with
  | nil => exact ⟨hx, List.not_mem_nil⟩
  | append_singleton turns n ih =>
    rw [List.map_append, run_append] at hx
    obtain ⟨x, hold, rfl⟩ := Option.map_eq_some_iff.mp ((getElem?_turn _ n k).symm.trans hx)
    split at hready
    · rw [Waiter.look_not_ready] at hready
      cases hready
    · next hne =>
      obtain ⟨hbefore, hnot⟩ := ih hold hready
      exact ⟨by rw [hbefore, if_neg hne], by simp [hnot, Ne.symm hne]⟩

theorem settled_of_turns {turns : List Nat} (h : ∀ k < w.waiters.length, k ∈ turns) :
    (w.run (turns.map .turn)).Settled := by
  intro x hx
  obtain ⟨k, hk⟩ := List.mem_iff_getElem?.mp hx
  rw [← Bool.not_eq_true]
  intro hready
  obtain ⟨hbefore, hnot⟩ := ready_of_turns hk hready
  exact hnot (h k (List.getElem?_eq_some_iff.mp hbefore).1)

namespace Attended

theorem getElem?_waiters (h : Attended moves w) {n t : Nat} (ht : (waits moves)[n]? = some t) :
    ∃ x, w.waiters[n]? = some x ∧ x.token = t := by
  rw [← h.waited, List.getElem?_map] at ht
  exact Option.map_eq_some_iff.mp ht

/-- At rest the tasks are where the tokens have them. -/
theorem waiters_of_settled (h : Attended moves w) (hsettled : w.Settled) : w.tokens.waiters =
    w.waiters.map fun x => (w.tokens.familyOf x.token, x.stage == .done) := by
  rw [h.sound.waiters, ← h.waited, List.map_map]
  refine List.map_congr_left fun x hx => ?_
  have hdone := (h.heeds x hx).done_iff (hsettled x hx)
  rw [Function.comp_apply, Prod.mk.injEq]
  exact ⟨rfl, by rw [Bool.eq_iff_iff, ← hdone, beq_iff_eq]⟩

/-- To cancel a family once more leaves everything as it is. -/
theorem cancel_again (h : Attended moves w) {t : Nat} (hcancelled : w.tokens.isCancelled t = true) :
    w.step (.cancel t) = w := by
  have hfamily {k : Nat} (hk : w.tokens.familyOf k = w.tokens.familyOf t) :
      w.tokens.isCancelled k = true := by
    rw [isCancelled, hk]
    exact hcancelled
  have htokens : w.tokens.cancel t = w.tokens := h.sound.cancel_of_cancelled hcancelled
  have hwaiters : (w.waiters.map fun x =>
      if w.tokens.familyOf x.token = w.tokens.familyOf t then x.rouse else x) = w.waiters := by
    refine (List.map_congr_left fun x hx => ?_).trans (List.map_id _)
    split
    · next hsame =>
      -- nobody of a cancelled family sleeps
      have hawake : x.stage ≠ .asleep := fun hasleep =>
        Bool.false_ne_true (((h.heeds x hx).asleep hasleep).symm.trans (hfamily hsame))
      rw [Waiter.rouse, if_neg hawake, id]
    · rfl
  rw [Waiting.step, Tokens.step, htokens]
  exact congrArg (Waiting.mk w.tokens) hwaiters

/-- A cancellation reaches nobody of another family. -/
theorem cancel_apart (h : Attended moves w) {t k : Nat} (ht : t < w.tokens.families.length)
    (hk : k < w.tokens.families.length) (hapart : ¬SameFamily moves t k) :
    (w.step (.cancel t)).tokens.isCancelled k = w.tokens.isCancelled k ∧
      ∀ (n : Nat) (stage : Stage), w.waiters[n]? = some ⟨k, stage⟩ →
        (w.step (.cancel t)).waiters[n]? = some ⟨k, stage⟩ := by
  rw [h.sound.sameFamily_iff ht hk] at hapart
  refine ⟨isCancelled_cancel_of_ne hk (h.sound.bounded t ht) hapart, fun n stage hn => ?_⟩
  rw [Waiting.step, List.getElem?_map, hn, Option.map_some, if_neg (Ne.symm hapart)]

end Attended

/-- After any lawful moves, with turns of the waiting tasks anywhere between them, a token is
cancelled exactly if one of its family was. No task is done before its token is cancelled. Once no
task can go on, which turns of all of them in any order come to, the tasks that are done are those
whose token is cancelled, as the tokens have it. To cancel once more changes nothing, and to cancel
a token reaches neither tokens nor tasks of another family. -/
theorem cancelled_by_family (moves : List Move) (h : Lawful 1 moves) :
    let w := ({} : Waiting).run moves
    let there := (origins moves).length
    (∀ k < there, w.tokens.isCancelled k = true ↔ Cancelled moves k) ∧
    (∀ (n t : Nat), (waits moves)[n]? = some t → ∃ stage, w.waiters[n]? = some ⟨t, stage⟩ ∧
      (stage = .done → Cancelled moves t) ∧
      (w.Settled → Cancelled moves t → stage = .done)) ∧
    (∀ turns : List Nat, (∀ n < (waits moves).length, n ∈ turns) →
      (({} : Waiting).run (moves ++ turns.map .turn)).Settled) ∧
    (w.Settled → w.tokens.waiters =
      w.waiters.map fun x => (w.tokens.familyOf x.token, x.stage == .done)) ∧
    (∀ t < there, w.tokens.isCancelled t = true → w.step (.cancel t) = w) ∧
    ∀ t < there, ∀ k < there, ¬SameFamily moves t k →
      (w.step (.cancel t)).tokens.isCancelled k = w.tokens.isCancelled k ∧
      ∀ (n : Nat) (stage : Stage), w.waiters[n]? = some ⟨k, stage⟩ →
        (w.step (.cancel t)).waiters[n]? = some ⟨k, stage⟩ := by
  intro w there
  have hattended : Attended moves w := attended_run h
  have hthere : w.tokens.families.length = there := hattended.sound.length
  rw [← hthere]
  refine ⟨fun k hk => hattended.sound.isCancelled_iff hk, fun n t ht => ?_, fun turns hall => ?_,
    hattended.waiters_of_settled, fun t _ => hattended.cancel_again,
    fun t ht k hk => hattended.cancel_apart ht hk⟩
  · obtain ⟨x, hx, rfl⟩ := hattended.getElem?_waiters ht
    have hmem := List.mem_of_getElem? hx
    have hheeds := hattended.heeds x hmem
    have hcancelled := hattended.sound.isCancelled_iff (hattended.lt_of_mem hmem)
    refine ⟨x.stage, hx, fun hdone => hcancelled.mp (hheeds.done hdone), fun hsettled hasked => ?_⟩
    exact (hheeds.done_iff (hsettled x hmem)).mpr (hcancelled.mpr hasked)
  · rw [run_append]
    refine settled_of_turns fun n hn => hall n ?_
    rwa [← hattended.waited, List.length_map]

/-- Tokens 1 and 2 descend from token 0 and so does token 4, which is made after the cancellation of
token 2. Token 3 is of its own. The first task went to sleep before the cancellation, the second one
had no turn before it, the third began after it, and the last one waits on token 3. -/
theorem waits_around_a_cancellation :
    let moves : List Move := [.wait 0, .turn 0, .clone 0, .clone 1, .new, .wait 1, .cancel 2,
      .clone 0, .wait 4, .wait 3, .turn 3, .turn 1, .turn 0, .turn 2]
    let w := ({} : Waiting).run moves
    Lawful 1 moves ∧ w.Settled ∧
      (Cancelled moves 0 ∧ Cancelled moves 4 ∧ ¬Cancelled moves 3) ∧
      (∃ stage, w.waiters[2]? = some ⟨4, stage⟩ ∧ stage = .done) ∧
      w.tokens.waiters = [(0, true), (0, true), (0, true), (1, false)] ∧
      (({} : Waiting).run (moves ++ [2, 0, 3, 1].map .turn)).Settled ∧
      w.step (.cancel 1) = w ∧
      (w.step (.cancel 3)).tokens.isCancelled 0 = true := by
  intro moves w
  have hlawful : Lawful 1 moves := by decide
  have hsettled : w.Settled := by decide
  obtain ⟨hcancelled, hwaits, hturns, htokens, hagain, hapart⟩ := cancelled_by_family moves hlawful
  obtain ⟨stage, hstage, -, hdone⟩ := hwaits 2 4 rfl
  have hfour : Cancelled moves 4 := (hcancelled 4 (by decide)).mp (by decide)
  have hthree : ¬Cancelled moves 3 := (hcancelled 3 (by decide)).not.mp (by decide)
  -- token 0 is of the cancelled family, token 3 is not
  have hzero : Cancelled moves 0 := (hcancelled 0 (by decide)).mp (by decide)
  have hother : ¬SameFamily moves 3 0 := fun h =>
    have ⟨t, ht, hfamily⟩ := hzero
    hthree ⟨t, ht, hfamily.trans _ _ _ (.symm _ _ h)⟩
  exact ⟨hlawful, hsettled, ⟨hzero, hfour, hthree⟩, ⟨stage, hstage, hdone hsettled hfour⟩,
    (htokens hsettled).trans rfl, hturns [2, 0, 3, 1] (by decide), hagain 1 (by decide) (by decide),
    (hapart 3 (by decide) 0 (by decide) hother).1.trans (by decide)⟩

end Waiting

end Vigil.Tokens
