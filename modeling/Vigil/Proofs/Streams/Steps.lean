import Vigil.Streams.Subscriptions

/-! Subscriptions under every order of calls, cancellations, arrivals and turns, and what each of
these does to who stands and to what was told. -/
namespace Vigil.Subscriptions

/-- What can happen between two waits. A request that is refused is a turn with that answer. -/
inductive Step where
  | subscribe (key : StreamKey)
  | unsubscribe (key : StreamKey)
  | unsubscribeAll (subject : String)
  | unsubscribeEverything
  | cancel (id : Nat)
  | receive (id : Nat) (item : StreamItem)
  | turn (id : Nat) (answer : Answer)

def step (m : Subscriptions) : Step → Subscriptions
  | .subscribe key => (m.subscribe key).1
  | .unsubscribe key => (m.unsubscribe key).1
  | .unsubscribeAll subject => (m.unsubscribeAll subject).1
  | .unsubscribeEverything => m.unsubscribeEverything.1
  | .cancel id => m.cancel id
  | .receive id item => m.receive id item
  | .turn id answer => m.turn answer id

def run (m : Subscriptions) (steps : List Step) : Subscriptions := steps.foldl step m

/-- An invariant of single steps is one of runs. -/
theorem run_induction {P : Subscriptions → Prop} (hstep : ∀ m s, P m → P (m.step s))
    {m : Subscriptions} (hm : P m) (steps : List Step) : P (m.run steps) := by
  induction steps generalizing m with
  | nil => exact hm
  | cons s rest ih => exact ih (hstep m s hm)

/-- The keys subscribed to, in order; the place in the list is the subscription's number. -/
def subscribed (steps : List Step) : List StreamKey :=
  steps.filterMap fun
    | .subscribe key => some key
    | _ => none

/-- How often a subscription was told its end. -/
def endings (m : Subscriptions) (id : Nat) : Nat :=
  m.trail.countP fun
    | (n, .ended _) => n == id
    | _ => false

/-- Every subscription's key, and whether its end is still to be told. -/
def standing (m : Subscriptions) : List (StreamKey × Bool) := m.all.map fun s => (s.key, s.live)

/-- What becomes of a standing subscription whose end is told. -/
def retired (p : StreamKey × Bool) : StreamKey × Bool := (p.1, false)

theorem map_fst_modify_retired (l : List (StreamKey × Bool)) (id : Nat) :
    (l.modify id retired).map Prod.fst = l.map Prod.fst := by
  apply List.ext_getElem?
  intro i
  rw [List.getElem?_map, List.getElem?_map, List.getElem?_modify]
  cases l[i]? with
  | none => rfl
  | some q => by_cases hi : id = i <;> simp [hi, retired]

@[simp] theorem length_standing (m : Subscriptions) : m.standing.length = m.all.length := by
  simp [standing]

theorem standing_eq_some_iff {m : Subscriptions} {id : Nat} {key : StreamKey} {live : Bool} :
    m.standing[id]? = some (key, live) ↔
      ∃ s, m.all[id]? = some s ∧ s.key = key ∧ s.live = live := by
  simp [standing, List.getElem?_map, Option.map_eq_some_iff]

theorem isLive_iff {m : Subscriptions} {id : Nat} :
    m.isLive id = true ↔ ∃ key, m.standing[id]? = some (key, true) := by
  simp only [isLive, standing_eq_some_iff, Option.any_eq_true]
  constructor
  · rintro ⟨s, hs, hl⟩; exact ⟨s.key, s, hs, rfl, hl⟩
  · rintro ⟨key, s, hs, -, hl⟩; exact ⟨s, hs, hl⟩

/-! ### Updates -/

@[simp] theorem update_handles (m : Subscriptions) (id : Nat) (f : Subscription → Subscription) :
    (m.update id f).handles = m.handles := rfl

@[simp] theorem update_trail (m : Subscriptions) (id : Nat) (f : Subscription → Subscription) :
    (m.update id f).trail = m.trail := rfl

/-- An update that leaves keys and liveness alone changes nobody's standing. -/
theorem update_standing (m : Subscriptions) (id : Nat) {f : Subscription → Subscription}
    (hkey : ∀ s, (f s).key = s.key) (hlive : ∀ s, (f s).live = s.live) :
    (m.update id f).standing = m.standing := by
  apply List.ext_getElem?
  intro i
  simp only [standing, update, List.getElem?_map, List.getElem?_modify]
  cases m.all[i]? with
  | none => rfl
  | some s => by_cases h : id = i <;> simp [h, hkey, hlive]

theorem update_standing_retired (m : Subscriptions) (id : Nat) {f : Subscription → Subscription}
    (hkey : ∀ s, (f s).key = s.key) (hlive : ∀ s, (f s).live = false) :
    (m.update id f).standing = m.standing.modify id retired := by
  apply List.ext_getElem?
  intro i
  simp only [standing, update, List.getElem?_map, List.getElem?_modify]
  cases m.all[i]? with
  | none => rfl
  | some s => by_cases h : id = i <;> simp [h, hkey, hlive, retired]

@[simp] theorem note_all (m : Subscriptions) (id : Nat) (d : SubscriptionDeed) :
    (m.note id d).all = m.all := rfl

@[simp] theorem note_handles (m : Subscriptions) (id : Nat) (d : SubscriptionDeed) :
    (m.note id d).handles = m.handles := rfl

@[simp] theorem note_standing (m : Subscriptions) (id : Nat) (d : SubscriptionDeed) :
    (m.note id d).standing = m.standing := rfl

@[simp] theorem cancel_handles (m : Subscriptions) (id : Nat) : (m.cancel id).handles = m.handles :=
  rfl

@[simp] theorem cancel_trail (m : Subscriptions) (id : Nat) : (m.cancel id).trail = m.trail := rfl

@[simp] theorem cancel_standing (m : Subscriptions) (id : Nat) :
    (m.cancel id).standing = m.standing :=
  m.update_standing id (fun _ => rfl) (fun _ => rfl)

@[simp] theorem receive_handles (m : Subscriptions) (id : Nat) (item : StreamItem) :
    (m.receive id item).handles = m.handles := rfl

@[simp] theorem receive_trail (m : Subscriptions) (id : Nat) (item : StreamItem) :
    (m.receive id item).trail = m.trail := rfl

@[simp] theorem receive_standing (m : Subscriptions) (id : Nat) (item : StreamItem) :
    (m.receive id item).standing = m.standing := by
  apply update_standing
  · intro s; split <;> rfl
  · intro s; split <;> rfl

/-! ### Ends -/

@[simp] theorem tellEnd_handles (m : Subscriptions) (id : Nat) (how : StreamEnd) :
    (m.tellEnd id how).handles = m.handles := by
  unfold tellEnd
  split <;> rfl

theorem tellEnd_trail (m : Subscriptions) (id : Nat) (how : StreamEnd) :
    (m.tellEnd id how).trail =
      if m.isLive id then (id, .ended how) :: m.trail else m.trail := by
  unfold tellEnd
  split <;> rfl

/-- After its end was told a subscription is over, whether or not it was before. -/
theorem tellEnd_standing (m : Subscriptions) (id : Nat) (how : StreamEnd) :
    (m.tellEnd id how).standing = m.standing.modify id retired := by
  unfold tellEnd
  split
  · exact m.update_standing_retired id (fun _ => rfl) (fun _ => rfl)
  · rename_i hdead
    apply List.ext_getElem?
    intro i
    rw [List.getElem?_modify]
    by_cases hi : id = i
    · subst hi
      cases hs : m.standing[id]? with
      | none => rfl
      | some p =>
        obtain ⟨key, live⟩ := p
        cases live with
        | true => exact absurd (isLive_iff.mpr ⟨key, hs⟩) hdead
        | false => simp [retired]
    · simp [hi]

@[simp] theorem teardown_handles (m : Subscriptions) (id : Nat) :
    (m.teardown id).handles = m.handles := tellEnd_handles _ id _

theorem teardown_standing (m : Subscriptions) (id : Nat) :
    (m.teardown id).standing = m.standing.modify id retired := by
  rw [teardown, tellEnd_standing, cancel_standing]

@[simp] theorem finish_handles (m : Subscriptions) (id : Nat) (how : StreamEnd) :
    (m.finish id how).handles = m.handles.filter (·.2 != id) := tellEnd_handles _ id how

theorem finish_standing (m : Subscriptions) (id : Nat) (how : StreamEnd) :
    (m.finish id how).standing = m.standing.modify id retired := by
  let kept : Subscriptions := { m with handles := m.handles.filter (·.2 != id) }
  have hset : (kept.update id ({ · with pump := .done, inbox := [] })).standing = m.standing :=
    kept.update_standing id (fun _ => rfl) (fun _ => rfl)
  exact (tellEnd_standing _ id how).trans (by rw [hset])

/-! ### Removals -/

/-- Tears the subscriptions of registrations down, one after the other. -/
def teardownAll (m : Subscriptions) (gone : List (StreamKey × Nat)) : Subscriptions :=
  gone.foldl (fun m h => m.teardown h.2) m

@[simp] theorem teardownAll_handles (m : Subscriptions) (gone : List (StreamKey × Nat)) :
    (m.teardownAll gone).handles = m.handles := by
  induction gone generalizing m with
  | nil => rfl
  | cons h rest ih => exact (ih (m.teardown h.2)).trans (teardown_handles m h.2)

theorem teardownAll_standing (m : Subscriptions) (gone : List (StreamKey × Nat)) (id : Nat) :
    (m.teardownAll gone).standing[id]? =
      m.standing[id]?.map fun p => if id ∈ gone.map Prod.snd then retired p else p := by
  induction gone generalizing m with
  | nil => simp [teardownAll]
  | cons h rest ih =>
    have hrest := ih (m.teardown h.2)
    rw [teardown_standing, List.getElem?_modify] at hrest
    refine hrest.trans ?_
    cases m.standing[id]? with
    | none => rfl
    | some p =>
      by_cases hh : h.2 = id
      · simp [hh, retired]
      · have hne : id ≠ h.2 := fun h' => hh h'.symm
        simp only [List.map_cons, List.mem_cons, hne, hh, false_or, if_false]
        rfl

theorem teardownAll_keys (m : Subscriptions) (gone : List (StreamKey × Nat)) :
    (m.teardownAll gone).standing.map Prod.fst = m.standing.map Prod.fst := by
  induction gone generalizing m with
  | nil => rfl
  | cons h rest ih =>
    have hone : (m.teardown h.2).standing.map Prod.fst = m.standing.map Prod.fst := by
      rw [teardown_standing, map_fst_modify_retired]
    exact (ih (m.teardown h.2)).trans hone

@[simp] theorem length_teardownAll (m : Subscriptions) (gone : List (StreamKey × Nat)) :
    (m.teardownAll gone).all.length = m.all.length := by
  simpa using congrArg List.length (m.teardownAll_keys gone)

theorem remove_eq (m : Subscriptions) (p : StreamKey → Bool) :
    (m.remove p).1 = teardownAll { m with handles := m.handles.filter fun h => !p h.1 }
      (m.handles.filter fun h => p h.1) := by
  simp only [remove, List.partition_eq_filter_filter]
  rfl

@[simp] theorem remove_handles (m : Subscriptions) (p : StreamKey → Bool) :
    (m.remove p).1.handles = m.handles.filter fun h => !p h.1 := by
  rw [remove_eq, teardownAll_handles]

theorem remove_standing (m : Subscriptions) (p : StreamKey → Bool) (id : Nat) :
    (m.remove p).1.standing[id]? = m.standing[id]?.map fun q =>
      if id ∈ (m.handles.filter fun h => p h.1).map Prod.snd then retired q else q := by
  rw [remove_eq, teardownAll_standing]
  rfl

@[simp] theorem length_remove (m : Subscriptions) (p : StreamKey → Bool) :
    (m.remove p).1.all.length = m.all.length := by
  rw [remove_eq, length_teardownAll]

theorem subscribe_standing (m : Subscriptions) (key : StreamKey) :
    (m.subscribe key).1.standing = (m.remove (· == key)).1.standing ++ [(key, true)] := by
  simp [subscribe, standing]

/-! ### Turns -/

/-- All that a turn of a subscription can come to. -/
inductive Turned (m : Subscriptions) (answer : Answer) (id : Nat) : Subscriptions → Prop where
  | idle (h : m.isReady answer id = false) : Turned m answer id m
  | stopped (s : Subscription) (hs : m.all[id]? = some s) (hp : s.pump ≠ .done)
      (hc : s.cancelled = true) : Turned m answer id (m.finish id .cancelled)
  | asked (s : Subscription) (hs : m.all[id]? = some s) (hp : s.pump = .called)
      (hc : s.cancelled = false) :
      Turned m answer id ((m.update id ({ · with pump := .opening })).note id .ask)
  | granted (s : Subscription) (hs : m.all[id]? = some s) (hp : s.pump = .opening)
      (hc : s.cancelled = false) (ha : answer = .granted) :
      Turned m answer id (m.update id ({ · with pump := .reading }))
  | refused (s : Subscription) (status : Status) (hs : m.all[id]? = some s)
      (hp : s.pump = .opening) (hc : s.cancelled = false) (ha : answer = .refused status) :
      Turned m answer id (m.finish id (.ofStatus status))
  | brought (s : Subscription) (e : StreamEvent) (rest : List StreamItem)
      (hs : m.all[id]? = some s) (hp : s.pump = .reading) (hc : s.cancelled = false)
      (hi : s.inbox = .event e :: rest) (hl : s.live = true) :
      Turned m answer id ((m.update id ({ · with inbox := rest })).note id (.event e))
  | muted (s : Subscription) (e : StreamEvent) (rest : List StreamItem)
      (hs : m.all[id]? = some s) (hp : s.pump = .reading) (hc : s.cancelled = false)
      (hi : s.inbox = .event e :: rest) (hl : s.live = false) :
      Turned m answer id (m.finish id .cancelled)
  | failed (s : Subscription) (status : Status) (rest : List StreamItem)
      (hs : m.all[id]? = some s) (hp : s.pump = .reading) (hc : s.cancelled = false)
      (hi : s.inbox = .error status :: rest) : Turned m answer id (m.finish id (.ofStatus status))
  | completed (s : Subscription) (rest : List StreamItem) (hs : m.all[id]? = some s)
      (hp : s.pump = .reading) (hc : s.cancelled = false) (hi : s.inbox = .close :: rest) :
      Turned m answer id (m.finish id .completed)

theorem turned (m : Subscriptions) (answer : Answer) (id : Nat) :
    Turned m answer id (m.turn answer id) := by
  unfold turn
  cases hs : m.all[id]? with
  | none => exact .idle (by simp [isReady, hs])
  | some s =>
    cases hp : s.pump with
    | done =>
      have hidle : m.isReady answer id = false := by simp [isReady, hs, hp]
      simpa [hp] using Turned.idle hidle
    | called =>
      cases hc : s.cancelled with
      | true => simpa [hp, hc] using Turned.stopped s hs (by simp [hp]) hc
      | false => simpa [hp, hc] using Turned.asked s hs hp hc
    | opening =>
      cases hc : s.cancelled with
      | true => simpa [hp, hc] using Turned.stopped s hs (by simp [hp]) hc
      | false =>
        cases ha : answer with
        | later =>
          have hidle : m.isReady .later id = false := by simp [isReady, hs, hp, hc]
          simpa [hp, hc] using Turned.idle hidle
        | granted => simpa [hp, hc] using Turned.granted s hs hp hc rfl
        | refused status => simpa [hp, hc] using Turned.refused s status hs hp hc rfl
    | reading =>
      cases hc : s.cancelled with
      | true => simpa [hp, hc] using Turned.stopped s hs (by simp [hp]) hc
      | false =>
        cases hi : s.inbox with
        | nil =>
          have hidle : m.isReady answer id = false := by simp [isReady, hs, hp, hc, hi]
          simpa [hp, hc, hi] using Turned.idle hidle
        | cons item rest =>
          cases item with
          | event e =>
            cases hl : s.live with
            | true => simpa [hp, hc, hi, hl] using Turned.brought s e rest hs hp hc hi hl
            | false => simpa [hp, hc, hi, hl] using Turned.muted s e rest hs hp hc hi hl
          | error status => simpa [hp, hc, hi] using Turned.failed s status rest hs hp hc hi
          | close => simpa [hp, hc, hi] using Turned.completed s rest hs hp hc hi

end Vigil.Subscriptions
