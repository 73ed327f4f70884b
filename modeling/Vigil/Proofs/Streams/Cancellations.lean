import Vigil.Cancellation
import Vigil.Proofs.Streams.Delivery

/-! What it means to cancel a token that was handed out for a subscription: whatever waits to be
read, nothing comes behind it but the end, and where that was told before, nobody notices. -/
namespace Vigil

namespace Subscription

/-- An act at which a cancelled subscription is told its end. -/
def Act.concludes : Act → Bool
  | .drop | .turn _ => true
  | .cancel | .receive _ => false

namespace Course

variable {c : Course}

theorem tellEnd_cancelled (c : Course) (how : StreamEnd) :
    (c.tellEnd how).sub.cancelled = c.sub.cancelled := by
  unfold tellEnd
  split <;> rfl

theorem tellEnd_live (c : Course) (how : StreamEnd) : (c.tellEnd how).sub.live = false := by
  cases hl : c.sub.live with
  | true => simp [tellEnd, hl, note, update]
  | false => simp [tellEnd, hl]

/-- A task that has ended told the end, and one that has not run asked for nothing. -/
structure Coherent (c : Course) : Prop where
  finished : c.sub.pump = .done → c.sub.live = false
  unasked : c.sub.pump = .called → .ask ∉ c.deeds

namespace Coherent

theorem finish (c : Course) (how : StreamEnd) : (c.finish how).Coherent := by
  cases hl : c.sub.live with
  | true =>
    rw [finish_of_live hl]
    exact ⟨fun _ => rfl, nofun⟩
  | false =>
    rw [finish_of_over hl]
    exact ⟨fun _ => hl, nofun⟩

theorem turn (h : c.Coherent) (answer : Subscriptions.Answer) : (c.turn answer).Coherent := by
  have ht := c.turned answer
  generalize c.turn answer = c' at ht ⊢
  cases ht with
  | idle => exact h
  | stopped | refused | muted | failed | completed => exact finish c _
  | asked => exact ⟨nofun, nofun⟩
  | granted => exact ⟨nofun, nofun⟩
  | brought e rest hp =>
    have hpump {p : Pump} (hne : p ≠ .reading) : c.sub.pump ≠ p :=
      fun hp' => hne (hp'.symm.trans hp)
    exact ⟨fun hdone => absurd hdone (hpump nofun), fun hcalled => absurd hcalled (hpump nofun)⟩

theorem step (h : c.Coherent) (a : Act) : (c.step a).Coherent := by
  cases a with
  | drop =>
    change c.drop.Coherent
    unfold drop
    split
    · rename_i hl
      rw [teardown_of_live hl]
      refine ⟨fun _ => rfl, fun hcalled => ?_⟩
      have hunasked := h.unasked hcalled
      simpa [note, update] using hunasked
    · exact h
  | cancel => exact ⟨h.finished, h.unasked⟩
  | receive item =>
    obtain ⟨inbox, hitem⟩ := c.exists_inbox item
    rw [hitem]
    exact ⟨h.finished, h.unasked⟩
  | turn answer => exact h.turn answer

theorem begun (key : StreamKey) : Coherent ⟨{ key }, []⟩ := ⟨nofun, fun _ => List.not_mem_nil⟩

end Coherent

/-- Cancelled before its end was told. -/
structure Hushed (c : Course) : Prop where
  cancelled : c.sub.cancelled = true
  live : c.sub.live = true
  going : c.sub.pump ≠ .done

namespace Hushed

theorem turn (h : c.Hushed) (answer : Subscriptions.Answer) :
    c.turn answer = c.finish .cancelled := by
  have hgoing := h.going
  have hcancelled := h.cancelled
  unfold Course.turn
  cases hp : c.sub.pump with
  | done => exact absurd hp hgoing
  | called | opening | reading => simp [hcancelled]

/-- Neither items nor another cancellation make a difference. -/
theorem step_of_waiting (h : c.Hushed) {a : Act} (ha : a.concludes = false) :
    (c.step a).Hushed ∧ (c.step a).deeds = c.deeds := by
  cases a with
  | drop => cases ha
  | turn answer => cases ha
  | cancel => exact ⟨⟨rfl, h.live, h.going⟩, rfl⟩
  | receive item =>
    obtain ⟨inbox, hitem⟩ := c.exists_inbox item
    rw [hitem]
    exact ⟨⟨h.cancelled, h.live, h.going⟩, rfl⟩

theorem step_of_concludes (h : c.Hushed) {a : Act} (ha : a.concludes = true) :
    (c.step a).Silent ∧ (c.step a).deeds = c.deeds ++ [.ended .cancelled] := by
  cases a with
  | drop =>
    have hdrop : c.step .drop = c.teardown := if_pos h.live
    rw [hdrop, teardown_of_live h.live]
    exact ⟨⟨rfl, .inl rfl⟩, rfl⟩
  | turn answer =>
    have hturn : c.step (.turn answer) = c.finish .cancelled := h.turn answer
    rw [hturn, finish_of_live h.live]
    exact ⟨⟨rfl, .inr rfl⟩, rfl⟩
  | cancel => cases ha
  | receive item => cases ha

theorem run_of_waiting (h : c.Hushed) {acts : List Act} (hacts : acts.any (·.concludes) = false) :
    (c.run acts).Hushed := by
  induction acts generalizing c with
  | nil => exact h
  | cons a rest ih =>
    obtain ⟨ha, hrest⟩ : a.concludes = false ∧ rest.any (·.concludes) = false := by
      simpa using hacts
    exact ih (h.step_of_waiting ha).1 hrest

/-- It is told nothing any more but that it was cancelled, at the first chance and once. -/
theorem run (h : c.Hushed) (acts : List Act) :
    (c.run acts).deeds =
      c.deeds ++ if acts.any (·.concludes) then [.ended .cancelled] else [] := by
  induction acts generalizing c with
  | nil => simp [Course.run]
  | cons a rest ih =>
    have hrun : c.run (a :: rest) = (c.step a).run rest := rfl
    rw [hrun, List.any_cons]
    cases ha : a.concludes with
    | false =>
      obtain ⟨hhushed, hdeeds⟩ := h.step_of_waiting ha
      rw [ih hhushed, hdeeds, Bool.false_or]
    | true =>
      obtain ⟨hsilent, hdeeds⟩ := h.step_of_concludes ha
      rw [hsilent.run rest, hdeeds]
      rfl

end Hushed

theorem Coherent.hushed (h : c.Coherent) (hl : c.sub.live = true) : c.cancel.Hushed :=
  ⟨rfl, hl, fun hdone => nomatch hl.symm.trans (h.finished hdone)⟩

/-- A cancellation is for good. -/
theorem step_cancelled (hc : c.sub.cancelled = true) (a : Act) :
    (c.step a).sub.cancelled = true := by
  cases a with
  | drop =>
    change c.drop.sub.cancelled = true
    unfold drop
    split
    · exact (tellEnd_cancelled c.cancel .cancelled).trans rfl
    · exact hc
  | cancel => rfl
  | receive item =>
    obtain ⟨inbox, hitem⟩ := c.exists_inbox item
    rw [hitem]
    exact hc
  | turn answer =>
    change (c.turn answer).sub.cancelled = true
    have ht := c.turned answer
    generalize c.turn answer = c' at ht ⊢
    cases ht with
    | idle | asked | granted | brought => exact hc
    | stopped | refused | muted | failed | completed => exact (tellEnd_cancelled _ _).trans hc

theorem run_cancelled (hc : c.sub.cancelled = true) (acts : List Act) :
    (c.run acts).sub.cancelled = true := by
  induction acts generalizing c with
  | nil => exact hc
  | cons a rest ih => exact ih (step_cancelled hc a)

/-- What is over does not begin again. -/
theorem step_over (hl : c.sub.live = false) (a : Act) : (c.step a).sub.live = false := by
  cases a with
  | drop => simp [step, drop, hl]
  | cancel => exact hl
  | receive item =>
    obtain ⟨inbox, hitem⟩ := c.exists_inbox item
    rw [hitem]
    exact hl
  | turn answer =>
    change (c.turn answer).sub.live = false
    have ht := c.turned answer
    generalize c.turn answer = c' at ht ⊢
    cases ht with
    | idle | asked | granted | brought => exact hl
    | stopped | refused | muted | failed | completed => exact tellEnd_live _ _

theorem run_over (hl : c.sub.live = false) (acts : List Act) : (c.run acts).sub.live = false := by
  induction acts generalizing c with
  | nil => exact hl
  | cons a rest ih => exact ih (step_over hl a)

theorem drop_live (c : Course) : c.drop.sub.live = false := by
  cases hl : c.sub.live with
  | true =>
    rw [drop, if_pos hl]
    exact tellEnd_live c.cancel .cancelled
  | false => rw [drop, if_neg (by simp [hl]), hl]

theorem Silent.run_silent (h : c.Silent) (acts : List Act) : (c.run acts).Silent := by
  induction acts generalizing c with
  | nil => exact h
  | cons a rest ih => exact ih (h.step a).1

end Course

end Subscription

namespace Subscriptions

open Subscription (Act Course)

variable {m m' : Subscriptions} {id : Nat}

/-! ### A cancelled subscription -/

/-- A step at which a cancelled subscription to this key is told its end: its task goes on, or its
registration is taken away. -/
def Step.concludes (id : Nat) (key : StreamKey) : Step → Bool
  | .turn n _ => n == id
  | s => s.drops?.any (· key)

theorem any_concludes_actOn (steps : List Step) (id : Nat) (key : StreamKey) :
    (steps.filterMap (·.actOn id key)).any (·.concludes) = steps.any (·.concludes id key) := by
  have hone (s : Step) : (s.actOn id key).any (·.concludes) = s.concludes id key := by
    cases s with
    | cancel n | receive n item =>
      by_cases hn : n = id <;> simp [Step.actOn, Step.concludes, Step.drops?, hn, Act.concludes]
    | turn n answer => by_cases hn : n = id <;> simp [Step.actOn, Step.concludes, hn, Act.concludes]
    | subscribe | unsubscribe | unsubscribeAll | unsubscribeEverything =>
      simp only [Step.actOn, Step.concludes]
      split
      · rename_i hdrops
        rw [hdrops]
        rfl
      · rename_i hdrops
        rw [(Bool.not_eq_true _).mp hdrops]
        rfl
  induction steps with
  | nil => rfl
  | cons s rest ih =>
    rw [List.any_cons, ← hone s, ← ih]
    cases ha : s.actOn id key with
    | none => rw [List.filterMap_cons_none ha]; rfl
    | some a => rw [List.filterMap_cons_some ha, List.any_cons]; rfl

theorem coherent_run (steps : List Step) {c : Course} (hc : (run {} steps).course? id = some c) :
    c.Coherent :=
  course_induction .begun (fun _ a h => h.step a) steps hc

/-- From its cancellation on, a subscription whose end was not told hears that it was cancelled and
nothing else. -/
theorem deedsOf_run_of_hushed (h : Registered m) {c : Course} (hc : m.course? id = some c)
    (hhushed : c.Hushed) (steps : List Step) :
    (m.run steps).deedsOf id = m.deedsOf id ++
      if steps.any (·.concludes id c.sub.key) then [.ended .cancelled] else [] := by
  rw [deedsOf_of_course? (course?_run h hc steps), deedsOf_of_course? hc, hhushed.run,
    any_concludes_actOn]

/-- Until its end is told its task has something to do, whatever the other side says. -/
theorem isReady_run_of_hushed (h : Registered m) {c : Course} (hc : m.course? id = some c)
    (hhushed : c.Hushed) {steps : List Step} (hsteps : steps.any (·.concludes id c.sub.key) = false)
    (answer : Answer) : (m.run steps).isReady answer id = true := by
  have hacts := (any_concludes_actOn steps id c.sub.key).trans hsteps
  have hrun := hhushed.run_of_waiting hacts
  rw [isReady, all_of_course? (course?_run h hc steps), Option.any_some, hrun.cancelled]
  have hgoing := hrun.going
  cases hp : (c.run (steps.filterMap (·.actOn id c.sub.key))).sub.pump with
  | done => exact absurd hp hgoing
  | called | opening | reading => rfl

/-! ### The others -/

/-- The same for everybody but one subscription. -/
structure AlikeBut (id : Nat) (m m' : Subscriptions) : Prop where
  length : m'.all.length = m.all.length
  course : ∀ n ≠ id, m'.course? n = m.course? n

theorem mem_handles_iff (h : Registered m) {key : StreamKey} :
    (key, id) ∈ m.handles ↔ ∃ c, m.course? id = some c ∧ c.sub.key = key ∧ c.sub.live = true := by
  rw [h.handles_iff, standing_eq_some_iff]
  constructor
  · rintro ⟨s, hs, hkey, hl⟩
    exact ⟨⟨s, m.deedsOf id⟩, by rw [course?, hs, Option.map_some], hkey, hl⟩
  · rintro ⟨c, hc, hkey, hl⟩
    exact ⟨c.sub, all_of_course? hc, hkey, hl⟩

namespace AlikeBut

theorem cancel (m : Subscriptions) (id : Nat) : AlikeBut id m (m.cancel id) := by
  refine ⟨by simp [Subscriptions.cancel, update], fun n hn => ?_⟩
  rw [course?_cancel]
  simp [hn.symm]

theorem step (h : AlikeBut id m m') (hreg : Registered m) (hknown : Known m)
    (hreg' : Registered m') (hknown' : Known m') (s : Step) :
    AlikeBut id (m.step s) (m'.step s) := by
  refine ⟨by rw [length_step, length_step, h.length], fun n hn => ?_⟩
  have hsame := h.course n hn
  cases hc : m.course? n with
  | none => rw [course?_step_of_none hknown hc, course?_step_of_none hknown' (hsame.trans hc), h.length]
  | some c => rw [course?_step hreg hc, course?_step hreg' (hsame.trans hc)]

theorem run (h : AlikeBut id m m') (hreg : Registered m) (hknown : Known m)
    (hreg' : Registered m') (hknown' : Known m') (steps : List Step) :
    AlikeBut id (m.run steps) (m'.run steps) := by
  induction steps generalizing m m' with
  | nil => exact h
  | cons s rest ih =>
    exact ih (h.step hreg hknown hreg' hknown' s) (hreg.step s) (hknown.step s) (hreg'.step s)
      (hknown'.step s)

theorem handles (h : AlikeBut id m m') (hreg : Registered m) (hreg' : Registered m') {n : Nat}
    (hn : n ≠ id) (key : StreamKey) : (key, n) ∈ m'.handles ↔ (key, n) ∈ m.handles := by
  rw [mem_handles_iff hreg, mem_handles_iff hreg', h.course n hn]

end AlikeBut

/-! ### A subscription that is over -/

theorem cancel_update (m : Subscriptions) (id n : Nat) {f : Subscription → Subscription}
    (hf : ∀ s, f { s with cancelled := true } = { f s with cancelled := true }) :
    (m.cancel id).update n f = (m.update n f).cancel id := by
  have hall : (m.all.modify id ({ · with cancelled := true })).modify n f =
      (m.all.modify n f).modify id ({ · with cancelled := true }) := by
    apply List.ext_getElem?
    intro i
    simp only [List.getElem?_modify]
    cases m.all[i]? with
    | none => rfl
    | some s => by_cases hid : id = i <;> by_cases hn : n = i <;> simp [hid, hn, hf]
  rw [cancel, update, update, hall]
  rfl

theorem isLive_cancel (m : Subscriptions) (id n : Nat) : (m.cancel id).isLive n = m.isLive n := by
  rw [Bool.eq_iff_iff, isLive_iff, isLive_iff, cancel_standing]

theorem cancel_tellEnd (m : Subscriptions) (id n : Nat) (how : StreamEnd) :
    (m.cancel id).tellEnd n how = (m.tellEnd n how).cancel id := by
  have hupdate := m.cancel_update id n (f := ({ · with live := false })) fun _ => rfl
  unfold tellEnd
  rw [isLive_cancel]
  by_cases hl : m.isLive n = true
  · rw [if_pos hl, if_pos hl, hupdate]
    rfl
  · rw [if_neg hl, if_neg hl]

theorem cancel_teardown (m : Subscriptions) (id n : Nat) :
    (m.cancel id).teardown n = (m.teardown n).cancel id := by
  have hcancel : (m.cancel id).cancel n = (m.cancel n).cancel id :=
    m.cancel_update id n fun _ => rfl
  rw [teardown, hcancel, cancel_tellEnd]
  rfl

theorem cancel_teardownAll (m : Subscriptions) (id : Nat) (gone : List (StreamKey × Nat)) :
    (m.cancel id).teardownAll gone = (m.teardownAll gone).cancel id := by
  induction gone generalizing m with
  | nil => rfl
  | cons h rest ih =>
    have hrest := ih (m.teardown h.2)
    rw [← cancel_teardown] at hrest
    exact hrest

theorem cancel_remove (m : Subscriptions) (id : Nat) (p : StreamKey → Bool) :
    ((m.cancel id).remove p).1 = (m.remove p).1.cancel id := by
  rw [remove_eq, remove_eq, ← cancel_teardownAll]
  rfl

theorem cancel_subscribe {m : Subscriptions} {id : Nat} (hid : id < m.all.length)
    (key : StreamKey) : ((m.cancel id).subscribe key).1 = (m.subscribe key).1.cancel id := by
  have hlt : id < (m.remove (· == key)).1.all.length := by simpa using hid
  have hlength : (m.cancel id).all.length = m.all.length := by simp [cancel, update]
  have hconcat (l : List Subscription) (x : Subscription) (hl : id < l.length) :
      l.modify id ({ · with cancelled := true }) ++ [x] =
        (l ++ [x]).modify id ({ · with cancelled := true }) := by
    apply List.ext_getElem?
    intro i
    rw [List.getElem?_modify]
    rcases Nat.lt_or_ge i l.length with hi | hi
    · rw [List.getElem?_append_left (by simpa using hi), List.getElem?_append_left hi,
        List.getElem?_modify]
    · have hne : id ≠ i := by omega
      rw [List.getElem?_append_right (by simpa using hi), List.getElem?_append_right hi,
        List.length_modify]
      simp [hne]
  simp only [subscribe, cancel_remove, hlength]
  exact congrArg (fun all => ({ all, handles := _, trail := _ } : Subscriptions))
    (hconcat _ { key } hlt)

theorem cancel_finish (m : Subscriptions) (id n : Nat) (how : StreamEnd) :
    (m.cancel id).finish n how = (m.finish n how).cancel id := by
  let kept : Subscriptions := { m with handles := m.handles.filter (·.2 != n) }
  have hupdate := kept.cancel_update id n (f := ({ · with pump := .done, inbox := [] })) fun _ => rfl
  refine Eq.trans ?_ (cancel_tellEnd _ id n how)
  exact congrArg (tellEnd · n how) hupdate

theorem cancel_turn_of_ne {n : Nat} (hn : n ≠ id) (m : Subscriptions) (answer : Answer) :
    (m.cancel id).turn answer n = (m.turn answer n).cancel id := by
  have hall : (m.cancel id).all[n]? = m.all[n]? := by
    simp [cancel, update, hn.symm]
  have hfinish (how : StreamEnd) := m.cancel_finish id n how
  unfold turn
  rw [hall]
  cases m.all[n]? with
  | none => rfl
  | some s =>
    have hupdate (p : Pump) := m.cancel_update id n (f := ({ · with pump := p })) fun _ => rfl
    cases hp : s.pump with
    | done => simp only [hp]
    | called =>
      cases hc : s.cancelled with
      | true => simp [hp, hc, hfinish]
      | false =>
        simp only [hp, hc, hupdate]
        rfl
    | opening =>
      cases hc : s.cancelled with
      | true => simp [hp, hc, hfinish]
      | false => cases answer <;> simp [hp, hc, hfinish, hupdate]
    | reading =>
      cases hc : s.cancelled with
      | true => simp [hp, hc, hfinish]
      | false =>
        cases hi : s.inbox with
        | nil => simp [hp, hc, hi]
        | cons item rest =>
          cases item with
          | error status => simp [hp, hc, hi, hfinish]
          | close => simp [hp, hc, hi, hfinish]
          | event e =>
            have hread := m.cancel_update id n (f := ({ · with inbox := rest })) fun _ => rfl
            cases hl : s.live with
            | false => simp [hp, hc, hi, hl, hfinish]
            | true =>
              simp only [hp, hc, hi, hl, hread]
              rfl

theorem turn_of_done {s : Subscription} (hs : m.all[id]? = some s) (hp : s.pump = .done)
    (answer : Answer) : m.turn answer id = m := by
  simp [turn, hs, hp]

theorem cancel_step_of_done {s : Subscription} (hs : m.all[id]? = some s) (hp : s.pump = .done)
    (op : Step) : (m.cancel id).step op = (m.step op).cancel id := by
  cases op with
  | subscribe key => exact cancel_subscribe (List.getElem?_eq_some_iff.mp hs).1 key
  | unsubscribe key => exact m.cancel_remove id (· == key)
  | unsubscribeAll subject => exact m.cancel_remove id (·.subject == subject)
  | unsubscribeEverything => exact m.cancel_remove id fun _ => true
  | cancel n => exact m.cancel_update id n fun _ => rfl
  | receive n item =>
    refine m.cancel_update id n fun s => ?_
    split <;> rfl
  | turn n answer =>
    by_cases hn : n = id
    · subst hn
      have hs' : (m.cancel n).all[n]? = some { s with cancelled := true } := by
        simp [cancel, update, hs]
      change (m.cancel n).turn answer n = (m.turn answer n).cancel n
      rw [turn_of_done hs hp, turn_of_done hs' hp]
    · exact cancel_turn_of_ne hn m answer

theorem cancel_of_cancelled {s : Subscription} (hs : m.all[id]? = some s)
    (hc : s.cancelled = true) : m.cancel id = m := by
  have hall : m.all.modify id ({ · with cancelled := true }) = m.all := by
    apply List.ext_getElem?
    intro i
    rw [List.getElem?_modify]
    by_cases hi : id = i
    · subst hi
      rw [hs]
      simp [← hc]
    · simp [hi]
  rw [cancel, update, hall]

theorem cancel_step_of_silent (h : Registered m) {c : Course} (hc : m.course? id = some c)
    (hsilent : c.Silent) (op : Step) : (m.cancel id).step op = (m.step op).cancel id := by
  rcases hsilent.halted with hcancelled | hdone
  · have hnext := all_of_course? (course?_step h hc op)
    rw [cancel_of_cancelled (all_of_course? hc) hcancelled]
    exact (cancel_of_cancelled hnext (Course.run_cancelled hcancelled _)).symm
  · exact cancel_step_of_done (all_of_course? hc) hdone op

/-- To cancel what has ended changes nothing but its own flag, now and ever after. -/
theorem cancel_run_of_silent (h : Registered m) {c : Course} (hc : m.course? id = some c)
    (hsilent : c.Silent) (steps : List Step) :
    (m.cancel id).run steps = (m.run steps).cancel id := by
  induction steps generalizing m c with
  | nil => rfl
  | cons op rest ih =>
    have hone := cancel_step_of_silent h hc hsilent op
    have hrest := ih (h.step op) (course?_step h hc op) (hsilent.run_silent _)
    calc (m.cancel id).run (op :: rest)
        = ((m.cancel id).step op).run rest := rfl
      _ = ((m.step op).cancel id).run rest := by rw [hone]
      _ = (m.run (op :: rest)).cancel id := hrest

/-! ### Tokens -/

/-- Subscriptions and the tokens that were handed out for them. -/
structure Handout where
  subscriptions : Subscriptions := {}
  /-- Whose each token is, clones too, in the order they were made. -/
  owners : List Nat := []

namespace Handout

/-- A subscription's token and its clones are one family, under the subscription's number. -/
def tokens (h : Handout) : Tokens :=
  { families := h.owners, flags := h.subscriptions.all.map (·.cancelled) }

inductive Move where
  | step (s : Step)
  | clone (token : Nat)
  | cancel (token : Nat)

/-- A new subscription's token is handed out with it. -/
def step (h : Handout) : Move → Handout
  | .step s =>
    { subscriptions := h.subscriptions.step s
      owners := h.owners ++ (subscribed [s]).map fun _ => h.subscriptions.all.length }
  | .clone token => { h with owners := h.owners ++ h.owners[token]?.toList }
  | .cancel token =>
    { h with subscriptions := h.owners[token]?.elim h.subscriptions h.subscriptions.cancel }

def run (h : Handout) (moves : List Move) : Handout := moves.foldl step h

def Move.concludes (id : Nat) (key : StreamKey) : Move → Bool
  | .step s => s.concludes id key
  | .clone _ | .cancel _ => false

theorem familyOf_eq {h : Handout} {token owner : Nat} (ht : h.owners[token]? = some owner) :
    h.tokens.familyOf token = owner := by
  simp [Tokens.familyOf, tokens, List.getD_eq_getElem?_getD, ht]

theorem tokens_clone {h : Handout} {token owner : Nat} (howner : h.owners[token]? = some owner) :
    (h.step (.clone token)).tokens = h.tokens.clone token := by
  rw [Tokens.clone, familyOf_eq howner]
  simp only [tokens, step, howner, Option.toList_some]

theorem tokens_cancel {h : Handout} {token owner : Nat} (howner : h.owners[token]? = some owner) :
    (h.step (.cancel token)).tokens = h.tokens.cancel token := by
  have hflags (l : List Subscription) (id : Nat) :
      (l.modify id ({ · with cancelled := true })).map (·.cancelled) =
        (l.map (·.cancelled)).set id true := by
    apply List.ext_getElem?
    intro i
    rw [List.getElem?_map, List.getElem?_modify, List.getElem?_set]
    by_cases hi : id = i
    · subst hi
      cases hs : l[id]? with
      | none => simp [List.getElem?_eq_none_iff.mp hs]
      | some s => simp [(List.getElem?_eq_some_iff.mp hs).1]
    · rw [if_neg hi, List.getElem?_map]
      cases l[i]? <;> simp [hi]
  rw [Tokens.cancel, familyOf_eq howner]
  simp only [tokens, step, howner, Option.elim_some, Subscriptions.cancel, update, hflags]
  rfl

/-! ### Moves as steps -/

/-- What a move is to the subscriptions. -/
def stepsOf (h : Handout) : Move → List Step
  | .step s => [s]
  | .clone _ => []
  | .cancel token => h.owners[token]?.toList.map .cancel

def steps (h : Handout) : List Move → List Step
  | [] => []
  | move :: rest => h.stepsOf move ++ (h.step move).steps rest

theorem step_subscriptions (h : Handout) (move : Move) :
    (h.step move).subscriptions = h.subscriptions.run (h.stepsOf move) := by
  cases move with
  | step s => rfl
  | clone token => rfl
  | cancel token =>
    simp only [step, stepsOf]
    cases h.owners[token]? <;> rfl

theorem run_subscriptions (h : Handout) (moves : List Move) :
    (h.run moves).subscriptions = h.subscriptions.run (h.steps moves) := by
  induction moves generalizing h with
  | nil => rfl
  | cons move rest ih =>
    have happend : h.subscriptions.run (h.steps (move :: rest)) =
        (h.subscriptions.run (h.stepsOf move)).run ((h.step move).steps rest) := List.foldl_append
    rw [happend, ← step_subscriptions]
    exact ih (h.step move)

/-- Which steps moves are depends on nothing but whose the tokens are. -/
theorem steps_congr {h h' : Handout} (howners : h'.owners = h.owners)
    (hlength : h'.subscriptions.all.length = h.subscriptions.all.length) (moves : List Move) :
    h'.steps moves = h.steps moves := by
  induction moves generalizing h h' with
  | nil => rfl
  | cons move rest ih =>
    have hof : h'.stepsOf move = h.stepsOf move := by
      cases move <;> simp [stepsOf, howners]
    have hnext : (h'.step move).steps rest = (h.step move).steps rest := by
      apply ih
      · cases move <;> simp [step, howners, hlength]
      · cases move with
        | step s => simp only [step, length_step, hlength]
        | clone token => exact hlength
        | cancel token =>
          simp only [step, howners]
          cases h.owners[token]? <;> simp [Subscriptions.cancel, update, hlength]
    rw [steps, steps, hof, hnext]

theorem any_concludes_steps (h : Handout) (moves : List Move) (id : Nat) (key : StreamKey) :
    (h.steps moves).any (·.concludes id key) = moves.any (·.concludes id key) := by
  induction moves generalizing h with
  | nil => rfl
  | cons move rest ih =>
    have hone : (h.stepsOf move).any (·.concludes id key) = move.concludes id key := by
      cases move with
      | step s => exact Bool.or_false _
      | clone token => rfl
      | cancel token =>
        simp only [stepsOf, Move.concludes]
        cases h.owners[token]? <;> rfl
    rw [steps, List.any_append, hone, ih, List.any_cons]

/-- Every token is that of a subscription that is there. -/
theorem owners_lt (moves : List Move) :
    ∀ owner ∈ (run {} moves).owners, owner < (run {} moves).subscriptions.all.length := by
  let Q (h : Handout) : Prop := ∀ owner ∈ h.owners, owner < h.subscriptions.all.length
  have hstep (h : Handout) (move : Move) (hQ : Q h) : Q (h.step move) := by
    intro owner howner
    cases move with
    | step s =>
      have hlength := length_step h.subscriptions s
      rcases List.mem_append.mp howner with hold | hnew
      · have hlt := hQ owner hold
        change owner < (h.subscriptions.step s).all.length
        omega
      · obtain ⟨key, hkey, rfl⟩ := List.mem_map.mp hnew
        have hpos := List.length_pos_of_mem hkey
        change h.subscriptions.all.length < (h.subscriptions.step s).all.length
        omega
    | clone token =>
      rcases List.mem_append.mp howner with hold | hnew
      · exact hQ owner hold
      · exact hQ owner (List.mem_of_getElem? (Option.mem_toList.mp hnew))
    | cancel token =>
      have hlt := hQ owner howner
      simp only [step]
      cases h.owners[token]? with
      | none => exact hlt
      | some n => simpa [Subscriptions.cancel, update] using hlt
  have hrun (h : Handout) (hQ : Q h) : Q (h.run moves) := by
    induction moves generalizing h with
    | nil => exact hQ
    | cons move rest ih => exact ih (h.step move) (hstep h move hQ)
  exact hrun {} (List.forall_mem_nil _)

end Handout

theorem course?_cancel_self {c : Course} (hc : m.course? id = some c) :
    (m.cancel id).course? id = some c.cancel := by
  rw [course?_cancel, hc]
  simp

/-! ### Successors -/

/-- Who has a successor under its key is over. -/
def Succeeded (m : Subscriptions) : Prop :=
  ∀ id n c c', id < n → m.course? id = some c → m.course? n = some c' →
    c'.sub.key = c.sub.key → c.sub.live = false

theorem Succeeded.step (h : Succeeded m) (hreg : Registered m) (hknown : Known m) (s : Step) :
    Succeeded (m.step s) := by
  intro id n d d' hlt hd hd' hkey
  cases hc : m.course? id with
  | none =>
    -- Two cannot come to be by one step.
    rw [course?_step_of_none hknown hc] at hd
    have hc' : m.course? n = none := by
      have hge : m.all.length ≤ id := by simpa [course?] using hc
      have hge' : m.all.length ≤ n := by omega
      simpa [course?] using hge'
    rw [course?_step_of_none hknown hc'] at hd'
    cases s with
    | subscribe key =>
      obtain ⟨hid, -⟩ : id = m.all.length ∧ ⟨{ key }, []⟩ = d := by simpa using hd
      obtain ⟨hn, -⟩ : n = m.all.length ∧ ⟨{ key }, []⟩ = d' := by simpa using hd'
      omega
    | unsubscribe | unsubscribeAll | unsubscribeEverything | cancel | receive | turn => cases hd
  | some c =>
    obtain rfl := Option.some.inj ((course?_step hreg hc s).symm.trans hd)
    rw [Course.run_key] at hkey
    cases hc' : m.course? n with
    | none =>
      rw [course?_step_of_none hknown hc'] at hd'
      cases s with
      | subscribe key =>
        obtain ⟨-, rfl⟩ : n = m.all.length ∧ ⟨{ key }, []⟩ = d' := by simpa using hd'
        have hact : (Step.subscribe key).actOn id c.sub.key = some .drop := by
          have hown : key = c.sub.key := hkey
          simp [Step.actOn, Step.drops?, hown]
        rw [hact]
        exact Course.drop_live c
      | unsubscribe | unsubscribeAll | unsubscribeEverything | cancel | receive | turn => cases hd'
    | some c' =>
      obtain rfl := Option.some.inj ((course?_step hreg hc' s).symm.trans hd')
      rw [Course.run_key] at hkey
      exact Course.run_over (h id n c c' hlt hc hc' hkey) _

theorem succeeded_run (steps : List Step) : Succeeded (run {} steps) := by
  let Q (m : Subscriptions) : Prop := Registered m ∧ Known m ∧ Succeeded m
  have hstep : ∀ m s, Q m → Q (m.step s) := fun m s ⟨hreg, hknown, h⟩ =>
    ⟨hreg.step s, hknown.step s, h.step hreg hknown s⟩
  have hempty : Succeeded {} := by
    intro id n c c' _ hc
    simp [course?] at hc
  have hbegin : Q {} := ⟨registered_run [], List.forall_mem_nil _, hempty⟩
  exact (run_induction hstep hbegin steps).2.2

theorem endings_run (steps : List Step) {id : Nat} {c : Course}
    (hc : (run {} steps).course? id = some c) :
    (run {} steps).endings id = if c.sub.live then 0 else 1 := by
  have hstanding : (run {} steps).standing[id]? = some (c.sub.key, c.sub.live) :=
    standing_eq_some_iff.mpr ⟨c.sub, all_of_course? hc, rfl, rfl⟩
  rw [(told_run steps).endings_eq id, hstanding]
  cases c.sub.live <;> rfl

theorem endings_eq_one_iff (steps : List Step) {id : Nat} {c : Course}
    (hc : (run {} steps).course? id = some c) :
    (run {} steps).endings id = 1 ↔ c.sub.live = false := by
  rw [endings_run steps hc]
  cases c.sub.live <;> simp

theorem endings_eq_zero_iff_live (steps : List Step) {id : Nat} {c : Course}
    (hc : (run {} steps).course? id = some c) :
    (run {} steps).endings id = 0 ↔ c.sub.live = true := by
  rw [endings_run steps hc]
  cases c.sub.live <;> simp

/-- What a subscription is told once it is cancelled: its end, if that was not told before. -/
theorem deedsOf_run_cancel (steps later : List Step) {id : Nat} {c : Course}
    (hc : (run {} steps).course? id = some c) :
    let m := run {} steps
    ((m.cancel id).run later).deedsOf id = m.deedsOf id ++
      if m.endings id = 0 ∧ later.any (·.concludes id c.sub.key) = true then [.ended .cancelled]
      else [] := by
  intro m
  have hreg : Registered (m.cancel id) := (registered_run steps).step (.cancel id)
  have hcancel := course?_cancel_self hc
  have hdeeds : (m.cancel id).deedsOf id = m.deedsOf id := rfl
  cases hl : c.sub.live with
  | true =>
    have hzero : m.endings id = 0 := (endings_eq_zero_iff_live steps hc).mpr hl
    have hhushed := (coherent_run steps hc).hushed hl
    rw [deedsOf_run_of_hushed hreg hcancel hhushed, hdeeds]
    simp only [hzero, true_and]
    rfl
  | false =>
    have hone : m.endings id = 1 := (endings_eq_one_iff steps hc).mpr hl
    have hsilent : c.cancel.Silent := ⟨hl, .inl rfl⟩
    rw [deedsOf_run_of_silent hreg hcancel hsilent, hdeeds]
    simp [hone]

theorem isReady_run_cancel {steps later : List Step} {id : Nat} {c : Course}
    (hc : (run {} steps).course? id = some c) (hzero : (run {} steps).endings id = 0)
    (hlater : later.any (·.concludes id c.sub.key) = false) (answer : Answer) :
    (((run {} steps).cancel id).run later).isReady answer id = true := by
  have hl := (endings_eq_zero_iff_live steps hc).mp hzero
  have hhushed := (coherent_run steps hc).hushed hl
  exact isReady_run_of_hushed ((registered_run steps).step (.cancel id)) (course?_cancel_self hc)
    hhushed hlater answer

theorem ask_notMem_run_cancel {steps : List Step} (later : List Step) {id : Nat} {c : Course}
    (hc : (run {} steps).course? id = some c) (hp : c.sub.pump = .called) :
    .ask ∉ (((run {} steps).cancel id).run later).deedsOf id := by
  have hunasked := (coherent_run steps hc).unasked hp
  rw [deedsOf_run_cancel steps later hc, deedsOf_of_course? hc]
  intro hmem
  rcases List.mem_append.mp hmem with hold | hnew
  · exact hunasked hold
  · split at hnew <;> simp at hnew

theorem cancel_run_of_ended {steps : List Step} (later : List Step) {id : Nat} {c : Course}
    (hc : (run {} steps).course? id = some c) (hone : (run {} steps).endings id = 1) :
    ((run {} steps).cancel id).run later = ((run {} steps).run later).cancel id := by
  have hover := (endings_eq_one_iff steps hc).mp hone
  have hhalted := ((kept_run steps id).2 c hc).halted hover
  exact cancel_run_of_silent (registered_run steps) hc ⟨hover, hhalted⟩ later

theorem endings_of_succeeded {steps : List Step} {id n : Nat} {s s' : Subscription}
    (hs : (run {} steps).all[id]? = some s) (hs' : (run {} steps).all[n]? = some s') (hn : id < n)
    (hkey : s'.key = s.key) : (run {} steps).endings id = 1 := by
  have hc (i : Nat) {sub : Subscription} (hsub : (run {} steps).all[i]? = some sub) :
      (run {} steps).course? i = some ⟨sub, (run {} steps).deedsOf i⟩ := by
    rw [course?, hsub, Option.map_some]
  have hover := succeeded_run steps id n _ _ hn (hc id hs) (hc n hs') hkey
  exact (endings_eq_one_iff steps (hc id hs)).mpr hover

/-- From the moment its token or a clone of it is cancelled, a subscription is brought nothing more,
whatever its stream had brought or the other side had answered. If its end was not told yet it is
told that it was cancelled, once, as soon as its task goes on or its registration is taken away, and
until then the task has to go on; if that had not run yet, the stream is never asked for. All others
are told what they are told without the cancellation, and stay registered as without it. Where the
end was told before, as it is to everyone with a successor under the same key, nothing at all
becomes different but the token. -/
theorem cancelled_hears_no_more (moves : List Handout.Move) {token id : Nat}
    (howner : (Handout.run {} moves).owners[token]? = some id) :
    let h := Handout.run {} moves
    let h' := h.step (.cancel token)
    let m := h.subscriptions
    h'.tokens = h.tokens.cancel token ∧
    ∃ s, m.all[id]? = some s ∧
      (∀ n s', id < n → m.all[n]? = some s' → s'.key = s.key → m.endings id = 1) ∧
      ∀ later : List Handout.Move,
        let m' := (h'.run later).subscriptions
        let without := (h.run later).subscriptions
        m'.deedsOf id = m.deedsOf id ++
          (if m.endings id = 0 ∧ later.any (·.concludes id s.key) = true then [.ended .cancelled]
          else []) ∧
        (m.endings id = 0 → later.any (·.concludes id s.key) = false →
          ∀ answer, m'.isReady answer id = true) ∧
        (s.pump = .called → .ask ∉ m'.deedsOf id) ∧
        (∀ n ≠ id, m'.course? n = without.course? n ∧
          ∀ key, (key, n) ∈ m'.handles ↔ (key, n) ∈ without.handles) ∧
        (m.endings id = 1 → m' = without.cancel id) := by
  intro h h' m
  change h.owners[token]? = some id at howner
  obtain ⟨steps, hm⟩ : ∃ steps, m = run {} steps := ⟨_, Handout.run_subscriptions {} moves⟩
  obtain ⟨s, hs⟩ : ∃ s, m.all[id]? = some s := by
    have hlt := Handout.owners_lt moves id (List.mem_of_getElem? howner)
    exact ⟨_, List.getElem?_eq_getElem hlt⟩
  have hsub : h'.subscriptions = m.cancel id := by
    simp only [h', Handout.step, howner]
    rfl
  have hruns (later : List Handout.Move) :
      (h'.run later).subscriptions = (m.cancel id).run (h.steps later) ∧
        (h.run later).subscriptions = m.run (h.steps later) := by
    have hlength : h'.subscriptions.all.length = h.subscriptions.all.length := by
      rw [hsub]
      simp [m, Subscriptions.cancel, update]
    have howners : h'.owners = h.owners := rfl
    refine ⟨?_, Handout.run_subscriptions h later⟩
    rw [Handout.run_subscriptions, hsub, Handout.steps_congr howners hlength]
  clear_value m
  subst hm
  have hc : (run {} steps).course? id = some ⟨s, (run {} steps).deedsOf id⟩ := by
    rw [course?, hs, Option.map_some]
  refine ⟨Handout.tokens_cancel howner, s, hs, fun n s' hn hs' hkey => ?_, fun later => ?_⟩
  · exact endings_of_succeeded hs hs' hn hkey
  · obtain ⟨hwith, hwithout⟩ := hruns later
    have hreg := registered_run steps
    have hreg' := hreg.step (.cancel id)
    have halike := (AlikeBut.cancel (run {} steps) id).run hreg (Known.run steps) hreg'
      ((Known.run steps).step (.cancel id)) (h.steps later)
    have hhandles (n : Nat) (hn : n ≠ id) (key : StreamKey) :=
      halike.handles (run_induction (fun _ s h => h.step s) hreg _)
        (run_induction (fun _ s h => h.step s) hreg' _) hn key
    rw [hwith, hwithout, ← Handout.any_concludes_steps h later]
    exact ⟨deedsOf_run_cancel steps _ hc, fun hzero => isReady_run_cancel hc hzero,
      ask_notMem_run_cancel _ hc, fun n hn => ⟨halike.course n hn, hhandles n hn⟩,
      cancel_run_of_ended _ hc⟩

/-- Clones of the tokens of one whose key was taken over and of its successor, which has not read
what its stream brought, and the token of one whose task has not run. -/
def handedOut : List Handout.Move :=
  [.step (.subscribe ⟨"p", .rawOutput⟩), .clone 0, .step (.turn 0 .later), .step (.turn 0 .granted),
    .step (.subscribe ⟨"p", .rawOutput⟩), .clone 2, .step (.turn 1 .later),
    .step (.turn 1 .granted), .step (.receive 1 (.event (.rawOutput [1]))),
    .step (.receive 1 .close), .step (.subscribe ⟨"q", .issues⟩)]

theorem handedOut_cancelled :
    let h := Handout.run {} handedOut
    let cancelled (token : Nat) (later : List Handout.Move) :=
      ((h.step (.cancel token)).run later).subscriptions
    (h.owners[1]? = some 0 ∧
      ∀ later, cancelled 1 later = (h.run later).subscriptions.cancel 0) ∧
    (h.owners[3]? = some 1 ∧
      (cancelled 3 [.step (.turn 1 .later)]).deedsOf 1 = [.ask, .ended .cancelled]) ∧
    (h.owners[4]? = some 2 ∧ ∀ later, .ask ∉ (cancelled 4 later).deedsOf 2) := by
  intro h cancelled
  have hfirst : h.owners[1]? = some 0 := by decide
  have hsecond : h.owners[3]? = some 1 := by decide
  have hthird : h.owners[4]? = some 2 := by decide
  obtain ⟨-, _, -, -, hold⟩ := cancelled_hears_no_more handedOut hfirst
  obtain ⟨-, _, -, -, hnew⟩ := cancelled_hears_no_more handedOut hsecond
  obtain ⟨-, s, hs, -, hcalled⟩ := cancelled_hears_no_more handedOut hthird
  have hended : h.subscriptions.endings 0 = 1 := by decide
  have hdeeds : h.subscriptions.deedsOf 1 = [.ask] := by decide
  have hlive : h.subscriptions.endings 1 = 0 := by decide
  have hunrun : h.subscriptions.all[2]? = some { key := ⟨"q", .issues⟩ } := by decide
  obtain rfl := Option.some.inj (hs.symm.trans hunrun)
  refine ⟨⟨hfirst, fun later => (hold later).2.2.2.2 hended⟩, ⟨hsecond, ?_⟩,
    ⟨hthird, fun later => (hcalled later).2.2.1 rfl⟩⟩
  have htold := (hnew [.step (.turn 1 .later)]).1
  exact htold.trans (congrArg₂ (· ++ ·) hdeeds (if_pos ⟨hlive, rfl⟩))

end Subscriptions

end Vigil
