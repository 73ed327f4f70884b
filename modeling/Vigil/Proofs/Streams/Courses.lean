import Vigil.Proofs.Streams.Registry

/-! Each subscription goes its own course: what becomes of it and what it is told depends on nothing
but what is done to it, whatever is done to others in between. -/
namespace Vigil

namespace Subscription

/-- What can be done to a subscription. -/
inductive Act where
  /-- Its registration is taken away, if it has one. -/
  | drop
  | cancel
  | receive (item : StreamItem)
  | turn (answer : Subscriptions.Answer)

/-- A subscription with its deeds so far, the oldest first. -/
structure Course where
  sub : Subscription
  deeds : List SubscriptionDeed := []

namespace Course

def note (c : Course) (d : SubscriptionDeed) : Course := { c with deeds := c.deeds ++ [d] }

def update (c : Course) (f : Subscription → Subscription) : Course := { c with sub := f c.sub }

def tellEnd (c : Course) (how : StreamEnd) : Course :=
  if c.sub.live then (c.update ({ · with live := false })).note (.ended how) else c

def cancel (c : Course) : Course := c.update ({ · with cancelled := true })

def teardown (c : Course) : Course := c.cancel.tellEnd .cancelled

def drop (c : Course) : Course := if c.sub.live then c.teardown else c

def finish (c : Course) (how : StreamEnd) : Course :=
  (c.update ({ · with pump := .done, inbox := [] })).tellEnd how

def receive (c : Course) (item : StreamItem) : Course :=
  c.update fun s =>
    if s.pump = .reading ∧ .close ∉ s.inbox then { s with inbox := s.inbox ++ [item] } else s

def turn (c : Course) (answer : Subscriptions.Answer) : Course :=
  match c.sub.pump with
  | .done => c
  | .called =>
    if c.sub.cancelled then c.finish .cancelled
    else (c.update ({ · with pump := .opening })).note .ask
  | .opening =>
    if c.sub.cancelled then c.finish .cancelled
    else match answer with
      | .later => c
      | .granted => c.update ({ · with pump := .reading })
      | .refused status => c.finish (.ofStatus status)
  | .reading =>
    if c.sub.cancelled then c.finish .cancelled
    else match c.sub.inbox with
      | [] => c
      | .event e :: rest =>
        if c.sub.live then (c.update ({ · with inbox := rest })).note (.event e)
        else c.finish .cancelled
      | .error status :: _ => c.finish (.ofStatus status)
      | .close :: _ => c.finish .completed

def step (c : Course) : Act → Course
  | .drop => c.drop
  | .cancel => c.cancel
  | .receive item => c.receive item
  | .turn answer => c.turn answer

def run (c : Course) (acts : List Act) : Course := acts.foldl step c

theorem run_append (c : Course) (acts acts' : List Act) :
    c.run (acts ++ acts') = (c.run acts).run acts' := List.foldl_append

@[simp] theorem tellEnd_key (c : Course) (how : StreamEnd) :
    (c.tellEnd how).sub.key = c.sub.key := by
  unfold tellEnd
  split <;> rfl

/-- All that a turn can come to. -/
inductive Turned (c : Course) (answer : Subscriptions.Answer) : Course → Prop where
  | idle (h : c.sub.pump = .done ∨ c.sub.cancelled = false) : Turned c answer c
  | stopped (hp : c.sub.pump ≠ .done) (hc : c.sub.cancelled = true) :
      Turned c answer (c.finish .cancelled)
  | asked (hp : c.sub.pump = .called) (hc : c.sub.cancelled = false) :
      Turned c answer ((c.update ({ · with pump := .opening })).note .ask)
  | granted (hp : c.sub.pump = .opening) (hc : c.sub.cancelled = false) (ha : answer = .granted) :
      Turned c answer (c.update ({ · with pump := .reading }))
  | refused (status : Status) (hp : c.sub.pump = .opening) (hc : c.sub.cancelled = false)
      (ha : answer = .refused status) : Turned c answer (c.finish (.ofStatus status))
  | brought (e : StreamEvent) (rest : List StreamItem) (hp : c.sub.pump = .reading)
      (hc : c.sub.cancelled = false) (hi : c.sub.inbox = .event e :: rest)
      (hl : c.sub.live = true) :
      Turned c answer ((c.update ({ · with inbox := rest })).note (.event e))
  | muted (e : StreamEvent) (rest : List StreamItem) (hp : c.sub.pump = .reading)
      (hc : c.sub.cancelled = false) (hi : c.sub.inbox = .event e :: rest)
      (hl : c.sub.live = false) : Turned c answer (c.finish .cancelled)
  | failed (status : Status) (rest : List StreamItem) (hp : c.sub.pump = .reading)
      (hc : c.sub.cancelled = false) (hi : c.sub.inbox = .error status :: rest) :
      Turned c answer (c.finish (.ofStatus status))
  | completed (rest : List StreamItem) (hp : c.sub.pump = .reading)
      (hc : c.sub.cancelled = false) (hi : c.sub.inbox = .close :: rest) :
      Turned c answer (c.finish .completed)

theorem turned (c : Course) (answer : Subscriptions.Answer) : c.Turned answer (c.turn answer) := by
  unfold turn
  cases hp : c.sub.pump with
  | done => exact .idle (.inl hp)
  | called =>
    cases hc : c.sub.cancelled with
    | true => exact .stopped (by simp [hp]) hc
    | false => exact .asked hp hc
  | opening =>
    cases hc : c.sub.cancelled with
    | true => exact .stopped (by simp [hp]) hc
    | false =>
      cases ha : answer with
      | later => exact .idle (.inr hc)
      | granted => exact .granted hp hc rfl
      | refused status => exact .refused status hp hc rfl
  | reading =>
    cases hc : c.sub.cancelled with
    | true => exact .stopped (by simp [hp]) hc
    | false =>
      cases hi : c.sub.inbox with
      | nil => exact .idle (.inr hc)
      | cons item rest =>
        cases item with
        | event e =>
          cases hl : c.sub.live with
          | true => exact .brought e rest hp hc hi hl
          | false => exact .muted e rest hp hc hi hl
        | error status => exact .failed status rest hp hc hi
        | close => exact .completed rest hp hc hi

/-- All that an item changes is what waits to be read. -/
theorem exists_inbox (c : Course) (item : StreamItem) :
    ∃ inbox, c.step (.receive item) = { c with sub := { c.sub with inbox } } := by
  simp only [step, receive, update]
  split
  · exact ⟨_, rfl⟩
  · exact ⟨c.sub.inbox, rfl⟩

theorem step_key (c : Course) (a : Act) : (c.step a).sub.key = c.sub.key := by
  cases a with
  | drop =>
    change c.drop.sub.key = c.sub.key
    unfold drop
    split
    · exact c.cancel.tellEnd_key .cancelled
    · rfl
  | cancel => rfl
  | receive item =>
    obtain ⟨inbox, hitem⟩ := c.exists_inbox item
    rw [hitem]
  | turn answer =>
    change (c.turn answer).sub.key = c.sub.key
    have ht := c.turned answer
    generalize c.turn answer = c' at ht ⊢
    cases ht with
    | idle | asked | granted | brought => rfl
    | stopped | refused | muted | failed | completed => exact tellEnd_key _ _

theorem run_key (c : Course) (acts : List Act) : (c.run acts).sub.key = c.sub.key := by
  induction acts generalizing c with
  | nil => rfl
  | cons a rest ih => exact (ih (c.step a)).trans (c.step_key a)

/-- Only one teardown counts. -/
theorem teardown_teardown (c : Course) : c.teardown.teardown = c.teardown := by
  cases hl : c.sub.live <;> simp [teardown, tellEnd, cancel, update, note, hl]

theorem teardown_of_live {c : Course} (hl : c.sub.live = true) : c.teardown =
    (c.update ({ · with cancelled := true, live := false })).note (.ended .cancelled) := by
  simp [teardown, tellEnd, cancel, update, hl]

theorem finish_of_live {c : Course} (hl : c.sub.live = true) (how : StreamEnd) : c.finish how =
    (c.update ({ · with pump := .done, inbox := [], live := false })).note (.ended how) := by
  simp [finish, tellEnd, update, hl]

theorem finish_of_over {c : Course} (hl : c.sub.live = false) (how : StreamEnd) :
    c.finish how = c.update ({ · with pump := .done, inbox := [] }) := by
  simp [finish, tellEnd, update, hl]

/-- The end was told, and the task behind the subscription has ended or will only end. -/
structure Silent (c : Course) : Prop where
  ended : c.sub.live = false
  halted : c.sub.cancelled = true ∨ c.sub.pump = .done

namespace Silent

variable {c : Course}

theorem finish (h : c.Silent) (how : StreamEnd) :
    (c.finish how).Silent ∧ (c.finish how).deeds = c.deeds := by
  rw [finish_of_over h.ended]
  exact ⟨⟨h.ended, .inr rfl⟩, rfl⟩

theorem turn (h : c.Silent) (answer : Subscriptions.Answer) :
    (c.turn answer).Silent ∧ (c.turn answer).deeds = c.deeds := by
  have hdone (hc : c.sub.cancelled = false) : c.sub.pump = .done :=
    h.halted.resolve_left (by simp [hc])
  have ht := c.turned answer
  generalize c.turn answer = c' at ht ⊢
  cases ht with
  | idle => exact ⟨h, rfl⟩
  | stopped => exact h.finish .cancelled
  | asked hp hc | granted hp hc | refused status hp hc | brought e rest hp hc
  | muted e rest hp hc | failed status rest hp hc | completed rest hp hc =>
    exact nomatch hp.symm.trans (hdone hc)

theorem step (h : c.Silent) (a : Act) : (c.step a).Silent ∧ (c.step a).deeds = c.deeds := by
  cases a with
  | drop =>
    have hsame : c.step .drop = c := by rw [Course.step, drop, if_neg (by simp [h.ended])]
    rw [hsame]
    exact ⟨h, rfl⟩
  | cancel => exact ⟨⟨h.ended, .inl rfl⟩, rfl⟩
  | receive item =>
    obtain ⟨inbox, hitem⟩ := c.exists_inbox item
    rw [hitem]
    exact ⟨⟨h.ended, h.halted⟩, rfl⟩
  | turn answer => exact h.turn answer

theorem run (h : c.Silent) (acts : List Act) : (c.run acts).deeds = c.deeds := by
  induction acts generalizing c with
  | nil => rfl
  | cons a rest ih =>
    obtain ⟨hs, hdeeds⟩ := h.step a
    exact (ih hs).trans hdeeds

end Silent

end Course

end Subscription

namespace Subscriptions

open Subscription (Act Course)

/-- The keys whose registrations a step takes away, if it is one that does so. -/
def Step.drops? : Step → Option (StreamKey → Bool)
  | .subscribe key | .unsubscribe key => some (· == key)
  | .unsubscribeAll subject => some (·.subject == subject)
  | .unsubscribeEverything => some fun _ => true
  | .cancel _ | .receive _ _ | .turn _ _ => none

/-- What a step does to the subscription of this number, which is one to this key. -/
def Step.actOn (id : Nat) (key : StreamKey) (s : Step) : Option Act :=
  match s with
  | .cancel n => if n = id then some .cancel else none
  | .receive n item => if n = id then some (.receive item) else none
  | .turn n answer => if n = id then some (.turn answer) else none
  | _ => if s.drops?.any (· key) then some .drop else none

/-- The deeds of one subscription so far, the oldest first. -/
def deedsOf (m : Subscriptions) (id : Nat) : List SubscriptionDeed :=
  (m.trail.reverse.filter (·.1 == id)).map Prod.snd

def course? (m : Subscriptions) (id : Nat) : Option Course :=
  m.all[id]?.map fun s => ⟨s, m.deedsOf id⟩

theorem mem_deedsOf {m : Subscriptions} {id : Nat} {d : SubscriptionDeed} :
    d ∈ m.deedsOf id ↔ (id, d) ∈ m.trail := by
  simp [deedsOf]

theorem deedsOf_note (m : Subscriptions) (n : Nat) (d : SubscriptionDeed) (id : Nat) :
    (m.note n d).deedsOf id = m.deedsOf id ++ if n = id then [d] else [] := by
  by_cases h : n = id <;> simp [deedsOf, note, h]

/-! ### Operations -/

theorem course?_note (m : Subscriptions) (n : Nat) (d : SubscriptionDeed) (id : Nat) :
    (m.note n d).course? id = (m.course? id).map fun c => if n = id then c.note d else c := by
  simp only [course?, note_all, deedsOf_note, Option.map_map]
  congr 1
  funext s
  by_cases h : n = id <;> simp [h, Course.note]

theorem course?_update (m : Subscriptions) (n : Nat) (f : Subscription → Subscription) (id : Nat) :
    (m.update n f).course? id = (m.course? id).map fun c => if n = id then c.update f else c := by
  have hdeeds : (m.update n f).deedsOf id = m.deedsOf id := rfl
  have hall : (m.update n f).all[id]? = m.all[id]?.map fun s => if n = id then f s else s := by
    simp only [update, List.getElem?_modify]
    cases m.all[id]? with
    | none => rfl
    | some s => by_cases h : n = id <;> simp [h]
  simp only [course?, hdeeds, hall, Option.map_map]
  congr 1
  funext s
  by_cases h : n = id <;> simp [h, Course.update]

theorem isLive_eq (m : Subscriptions) (id : Nat) :
    m.isLive id = (m.course? id).any (·.sub.live) := by
  unfold isLive course?
  cases m.all[id]? <;> rfl

theorem course?_tellEnd (m : Subscriptions) (n : Nat) (how : StreamEnd) (id : Nat) :
    (m.tellEnd n how).course? id =
      (m.course? id).map fun c => if n = id then c.tellEnd how else c := by
  by_cases hn : n = id
  · subst hn
    simp only [tellEnd, isLive_eq]
    cases hc : m.course? n with
    | none => simp [hc]
    | some c =>
      by_cases hl : c.sub.live = true
      · simp [hl, course?_note, course?_update, hc, Course.tellEnd]
      · simp [hl, hc, Course.tellEnd]
  · have hsame : (m.tellEnd n how).course? id = m.course? id := by
      unfold tellEnd
      split
      · simp [course?_note, course?_update, hn]
      · rfl
    simp [hsame, hn]

theorem course?_cancel (m : Subscriptions) (n : Nat) (id : Nat) :
    (m.cancel n).course? id = (m.course? id).map fun c => if n = id then c.cancel else c :=
  m.course?_update n _ id

theorem course?_teardown (m : Subscriptions) (n : Nat) (id : Nat) :
    (m.teardown n).course? id = (m.course? id).map fun c => if n = id then c.teardown else c := by
  rw [teardown, course?_tellEnd, course?_cancel, Option.map_map]
  congr 1
  funext c
  by_cases h : n = id <;> simp [h, Course.teardown]

theorem course?_finish (m : Subscriptions) (n : Nat) (how : StreamEnd) (id : Nat) :
    (m.finish n how).course? id =
      (m.course? id).map fun c => if n = id then c.finish how else c := by
  let kept : Subscriptions := { m with handles := m.handles.filter (·.2 != n) }
  have hkept : kept.course? id = m.course? id := rfl
  refine (course?_tellEnd (kept.update n ({ · with pump := .done, inbox := [] })) n how id).trans ?_
  rw [course?_update, hkept, Option.map_map]
  congr 1
  funext c
  by_cases h : n = id <;> simp [h, Course.finish]

theorem course?_teardownAll (m : Subscriptions) (gone : List (StreamKey × Nat)) (id : Nat) :
    (m.teardownAll gone).course? id =
      (m.course? id).map fun c => if id ∈ gone.map Prod.snd then c.teardown else c := by
  induction gone generalizing m with
  | nil => simp [teardownAll]
  | cons h rest ih =>
    refine (ih (m.teardown h.2)).trans ?_
    rw [course?_teardown, Option.map_map]
    congr 1
    funext c
    by_cases hh : h.2 = id
    · simp [hh, Course.teardown_teardown]
    · have hne : id ≠ h.2 := fun h' => hh h'.symm
      simp only [Function.comp, hh, if_false, List.map_cons, List.mem_cons, hne, false_or]

/-- Who is registered under a key that matches loses the registration, and nobody else. -/
theorem course?_remove {m : Subscriptions} (h : Registered m) (p : StreamKey → Bool) (id : Nat) :
    (m.remove p).1.course? id =
      (m.course? id).map fun c => if p c.sub.key then c.drop else c := by
  have hkept : ({ m with handles := m.handles.filter fun h => !p h.1 } : Subscriptions).course? id =
    m.course? id := rfl
  rw [remove_eq, course?_teardownAll, hkept]
  cases hs : m.all[id]? with
  | none => simp [course?, hs]
  | some s =>
    have hown (key : StreamKey) : (key, id) ∈ m.handles ↔ s.key = key ∧ s.live = true := by
      simp [h.handles_iff, standing_eq_some_iff, hs]
    have hgone : id ∈ (m.handles.filter fun h => p h.1).map Prod.snd ↔
        p s.key = true ∧ s.live = true := by
      simp [hown, and_comm]
    simp only [course?, hs, Option.map_some, hgone, Course.drop]
    cases hp : p s.key <;> cases hl : s.live <;> simp

theorem course?_receive (m : Subscriptions) (n : Nat) (item : StreamItem) (id : Nat) :
    (m.receive n item).course? id =
      (m.course? id).map fun c => if n = id then c.receive item else c :=
  m.course?_update n _ id

theorem course?_turn_self {m : Subscriptions} {id : Nat} {c : Course} (hc : m.course? id = some c)
    (answer : Answer) : (m.turn answer id).course? id = some (c.turn answer) := by
  obtain ⟨s, hs, rfl⟩ := Option.map_eq_some_iff.mp hc
  have hfinish (how : StreamEnd) := m.course?_finish id how id
  have hupdate (f : Subscription → Subscription) := m.course?_update id f id
  simp only [hc, Option.map_some, if_true] at hfinish hupdate
  simp only [turn, Course.turn, hs]
  cases s.pump with
  | done => exact hc
  | called =>
    cases s.cancelled with
    | true => exact hfinish _
    | false => simp [course?_note, hupdate]
  | opening =>
    cases s.cancelled with
    | true => exact hfinish _
    | false =>
      cases answer with
      | later => exact hc
      | granted => exact hupdate _
      | refused status => exact hfinish _
  | reading =>
    cases s.cancelled with
    | true => exact hfinish _
    | false =>
      cases s.inbox with
      | nil => exact hc
      | cons item rest =>
        cases item with
        | event e =>
          cases s.live with
          | true => simp [course?_note, hupdate]
          | false => exact hfinish _
        | error status => exact hfinish _
        | close => exact hfinish _

theorem course?_turn_of_ne {m : Subscriptions} {n id : Nat} (hne : n ≠ id) (answer : Answer) :
    (m.turn answer n).course? id = m.course? id := by
  have ht := m.turned answer n
  generalize m.turn answer n = m' at ht ⊢
  cases ht with
  | idle => rfl
  | stopped | refused | muted | failed | completed => simp [course?_finish, hne]
  | asked | brought => simp [course?_note, course?_update, hne]
  | granted => simp [course?_update, hne]

/-! ### Steps and runs -/

theorem length_step (m : Subscriptions) (s : Step) :
    (m.step s).all.length = m.all.length + (subscribed [s]).length := by
  have h := congrArg List.length (m.step_keys s)
  simp only [List.length_map, length_standing, List.length_append] at h
  exact h

theorem course?_subscribe {m : Subscriptions} (h : Registered m) (key : StreamKey) {id : Nat}
    (hid : id < m.all.length) : (m.subscribe key).1.course? id =
      (m.course? id).map fun c => if c.sub.key = key then c.drop else c := by
  have hsame : (m.subscribe key).1.course? id = (m.remove (· == key)).1.course? id := by
    have hlt : id < (m.remove (· == key)).1.all.length := by simpa using hid
    have hdeeds : (m.subscribe key).1.deedsOf id = (m.remove (· == key)).1.deedsOf id := rfl
    have hall : (m.subscribe key).1.all[id]? = (m.remove (· == key)).1.all[id]? :=
      List.getElem?_append_left hlt
    rw [course?, hall, hdeeds]
    rfl
  rw [hsame, course?_remove h]
  simp

/-- A step does to a subscription what it does to it, and nothing else. -/
theorem course?_step {m : Subscriptions} (h : Registered m) {id : Nat} {c : Course}
    (hc : m.course? id = some c) (s : Step) :
    (m.step s).course? id = some (c.run (s.actOn id c.sub.key).toList) := by
  have hlt : id < m.all.length := by
    obtain ⟨s, hs, -⟩ := Option.map_eq_some_iff.mp hc
    exact (List.getElem?_eq_some_iff.mp hs).1
  have hremove (p : StreamKey → Bool) : (m.remove p).1.course? id =
      some (c.run (if p c.sub.key then some .drop else none).toList) := by
    rw [course?_remove h, hc]
    cases hp : p c.sub.key <;> simp [hp, Course.run, Course.step]
  cases s with
  | subscribe key =>
    refine (course?_subscribe h key hlt).trans ?_
    rw [hc]
    by_cases hk : c.sub.key = key <;> simp [hk, Step.actOn, Step.drops?, Course.run, Course.step]
  | unsubscribe key => exact hremove (· == key)
  | unsubscribeAll subject => exact hremove (·.subject == subject)
  | unsubscribeEverything => exact hremove fun _ => true
  | cancel n =>
    refine (m.course?_cancel n id).trans ?_
    by_cases hn : n = id <;> simp [hc, hn, Step.actOn, Course.run, Course.step]
  | receive n item =>
    refine (m.course?_receive n item id).trans ?_
    by_cases hn : n = id <;> simp [hc, hn, Step.actOn, Course.run, Course.step]
  | turn n answer =>
    by_cases hn : n = id
    · subst hn
      refine (course?_turn_self hc answer).trans ?_
      simp [Step.actOn, Course.run, Course.step]
    · refine (course?_turn_of_ne hn answer).trans ?_
      simp [hc, hn, Step.actOn, Course.run]

theorem course?_run {m : Subscriptions} (h : Registered m) {id : Nat} {c : Course}
    (hc : m.course? id = some c) (steps : List Step) :
    (m.run steps).course? id = some (c.run (steps.filterMap (·.actOn id c.sub.key))) := by
  induction steps generalizing m c with
  | nil => exact hc
  | cons s rest ih =>
    have hrest := ih (h.step s) (course?_step h hc s)
    rw [Course.run_key, ← Course.run_append] at hrest
    refine hrest.trans ?_
    cases hs : s.actOn id c.sub.key <;> simp [hs]

theorem all_of_course? {m : Subscriptions} {id : Nat} {c : Course} (hc : m.course? id = some c) :
    m.all[id]? = some c.sub := by
  obtain ⟨s, hs, rfl⟩ := Option.map_eq_some_iff.mp hc
  exact hs

theorem deedsOf_of_course? {m : Subscriptions} {id : Nat} {c : Course}
    (hc : m.course? id = some c) : m.deedsOf id = c.deeds := by
  obtain ⟨s, -, rfl⟩ := Option.map_eq_some_iff.mp hc
  rfl

theorem deedsOf_run_of_silent {m : Subscriptions} (h : Registered m) {id : Nat} {c : Course}
    (hc : m.course? id = some c) (hs : c.Silent) (steps : List Step) :
    (m.run steps).deedsOf id = m.deedsOf id := by
  rw [deedsOf_of_course? (course?_run h hc steps), deedsOf_of_course? hc]
  exact hs.run _

/-! ### The begin of a course -/

theorem lt_of_isLive {m : Subscriptions} {id : Nat} (h : m.isLive id = true) :
    id < m.all.length := by
  obtain ⟨key, hk⟩ := isLive_iff.mp h
  simpa using (List.getElem?_eq_some_iff.mp hk).1

/-- Every deed is one of a subscription that is there. -/
def Known (m : Subscriptions) : Prop := ∀ d ∈ m.trail, d.1 < m.all.length

namespace Known

variable {m m' : Subscriptions}

theorem congr (h : Known m) (hall : m.all.length ≤ m'.all.length) (ht : m'.trail = m.trail) :
    Known m' := fun d hd => Nat.lt_of_lt_of_le (h d (ht ▸ hd)) hall

theorem note (h : Known m) {id : Nat} (hid : id < m.all.length) (d : SubscriptionDeed) :
    Known (m.note id d) := by
  intro x hx
  rcases List.mem_cons.mp hx with rfl | hx
  · exact hid
  · exact h x hx

theorem update (h : Known m) (id : Nat) (f : Subscription → Subscription) :
    Known (m.update id f) := h.congr (by simp [Subscriptions.update]) rfl

theorem tellEnd (h : Known m) (id : Nat) (how : StreamEnd) : Known (m.tellEnd id how) := by
  unfold Subscriptions.tellEnd
  split
  · rename_i hl
    exact (h.update id _).note (by simpa [Subscriptions.update] using lt_of_isLive hl) _
  · exact h

theorem teardownAll (h : Known m) (gone : List (StreamKey × Nat)) : Known (m.teardownAll gone) := by
  induction gone generalizing m with
  | nil => exact h
  | cons x rest ih => exact ih ((h.update x.2 _).tellEnd x.2 .cancelled)

theorem remove (h : Known m) (p : StreamKey → Bool) : Known (m.remove p).1 := by
  have hkept : Known { m with handles := m.handles.filter fun h => !p h.1 } := h
  rw [remove_eq]
  exact hkept.teardownAll _

theorem finish (h : Known m) (id : Nat) (how : StreamEnd) : Known (m.finish id how) := by
  have hkept : Known { m with handles := m.handles.filter (·.2 != id) } := h
  exact (hkept.update id _).tellEnd id how

theorem turn (h : Known m) (answer : Answer) (id : Nat) : Known (m.turn answer id) := by
  have ht := m.turned answer id
  generalize m.turn answer id = m' at ht ⊢
  have hlt {s : Subscription} (hs : m.all[id]? = some s) (f : Subscription → Subscription) :
      id < (m.update id f).all.length := by
    simpa [Subscriptions.update] using (List.getElem?_eq_some_iff.mp hs).1
  cases ht with
  | idle => exact h
  | stopped | refused | muted | failed | completed => exact h.finish id _
  | asked s hs => exact (h.update id _).note (hlt hs _) _
  | granted => exact h.update id _
  | brought s e rest hs => exact (h.update id _).note (hlt hs _) _

theorem step (h : Known m) (s : Step) : Known (m.step s) := by
  cases s with
  | subscribe key => exact (h.remove (· == key)).congr (by simp [Subscriptions.step, subscribe]) rfl
  | unsubscribe key => exact h.remove (· == key)
  | unsubscribeAll subject => exact h.remove (·.subject == subject)
  | unsubscribeEverything => exact h.remove fun _ => true
  | cancel id => exact h.update id _
  | receive id item => exact h.update id _
  | turn id answer => exact h.turn answer id

theorem run (steps : List Step) : Known (run {} steps) :=
  run_induction (fun _ s h => h.step s) nofun steps

theorem deedsOf_eq_nil (h : Known m) {id : Nat} (hid : m.all.length ≤ id) : m.deedsOf id = [] := by
  refine List.eq_nil_iff_forall_not_mem.mpr fun d hd => ?_
  have hlt := h _ (mem_deedsOf.mp hd)
  exact Nat.not_lt_of_le hid hlt

end Known

/-- A new subscription was told nothing yet. -/
theorem course?_subscribe_new {m : Subscriptions} (h : Known m) (key : StreamKey) :
    (m.subscribe key).1.course? m.all.length = some ⟨{ key }, []⟩ := by
  have hlen : (m.remove (· == key)).1.all.length = m.all.length := by simp
  have hall : (m.subscribe key).1.all[m.all.length]? = some { key } := by
    have hconcat : (m.subscribe key).1.all =
        (m.remove (· == key)).1.all ++ [{ key := key }] := rfl
    rw [hconcat, ← hlen, List.getElem?_concat_length]
  have hdeeds : (m.subscribe key).1.deedsOf m.all.length = [] := by
    apply (h.remove (· == key)).deedsOf_eq_nil
    exact Nat.le_of_eq hlen
  simp [course?, hall, hdeeds]

/-- Nobody comes to be but by a subscription, and then under the next number. -/
theorem course?_step_of_none {m : Subscriptions} (h : Known m) {id : Nat}
    (hc : m.course? id = none) (s : Step) :
    (m.step s).course? id = match s with
      | .subscribe key => if id = m.all.length then some ⟨{ key }, []⟩ else none
      | _ => none := by
  have hge : m.all.length ≤ id := by simpa [course?] using hc
  have hlen := m.length_step s
  have hnone (hle : (subscribed [s]).length ≤ id - m.all.length) :
      (m.step s).course? id = none := by
    have hnew : (m.step s).all.length ≤ id := by omega
    simpa [course?] using hnew
  cases s with
  | subscribe key =>
    by_cases heq : id = m.all.length
    · subst heq
      exact (course?_subscribe_new h key).trans (if_pos rfl).symm
    · have hone : (subscribed [.subscribe key]).length ≤ id - m.all.length := by
        change 1 ≤ id - m.all.length
        omega
      exact (hnone hone).trans (if_neg heq).symm
  | unsubscribe | unsubscribeAll | unsubscribeEverything | cancel | receive | turn =>
    exact hnone (Nat.zero_le _)

/-- What holds of a course at its begin, and what a step keeps by what it does to each, holds of all
courses behind the step. -/
theorem courses_step {P : Course → Prop} (hnew : ∀ key, P ⟨{ key }, []⟩) {m : Subscriptions}
    (hreg : Registered m) (hknown : Known m) (hall : ∀ id c, m.course? id = some c → P c) {s : Step}
    (hact : ∀ id c a, s.actOn id c.sub.key = some a → P c → P (c.step a)) {id : Nat} {c : Course}
    (hc : (m.step s).course? id = some c) : P c := by
  cases hold : m.course? id with
  | none =>
    rw [course?_step_of_none hknown hold] at hc
    cases s with
    | subscribe key =>
      obtain ⟨-, rfl⟩ : id = m.all.length ∧ ⟨{ key }, []⟩ = c := by simpa using hc
      exact hnew key
    | unsubscribe | unsubscribeAll | unsubscribeEverything | cancel | receive | turn => cases hc
  | some c₀ =>
    obtain rfl : c₀.run (s.actOn id c₀.sub.key).toList = c :=
      Option.some.inj ((course?_step hreg hold s).symm.trans hc)
    cases ha : s.actOn id c₀.sub.key with
    | none => exact hall id c₀ hold
    | some a => exact hact id c₀ a ha (hall id c₀ hold)

/-- What holds of every course at its begin, and what every act keeps, holds of all courses. -/
theorem course_induction {P : Course → Prop} (hnew : ∀ key, P ⟨{ key }, []⟩)
    (hact : ∀ c a, P c → P (c.step a)) (steps : List Step) {id : Nat} {c : Course}
    (hc : (run {} steps).course? id = some c) : P c := by
  let Q (m : Subscriptions) : Prop :=
    Registered m ∧ Known m ∧ ∀ id c, m.course? id = some c → P c
  have hstep : ∀ m s, Q m → Q (m.step s) := by
    rintro m s ⟨hreg, hknown, hall⟩
    refine ⟨hreg.step s, hknown.step s, fun id c hc => ?_⟩
    exact courses_step hnew hreg hknown hall (fun _ c a _ => hact c a) hc
  have hbegin : Q {} := ⟨registered_run [], nofun, nofun⟩
  exact (run_induction hstep hbegin steps).2.2 id c hc

end Subscriptions

end Vigil
