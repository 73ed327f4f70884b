import Mathlib.Data.List.Nodup
import Vigil.Proofs.Streams.Steps

/-! The registered subscriptions are those whose end is still to be told, and every end is told
once. -/
namespace Vigil.Subscriptions

/-! ### What was told -/

theorem endings_note_ended (m : Subscriptions) (id : Nat) (how : StreamEnd) (i : Nat) :
    (m.note id (.ended how)).endings i = m.endings i + if id = i then 1 else 0 := by
  simp [endings, note, List.countP_cons]

theorem endings_note (m : Subscriptions) (id : Nat) {d : SubscriptionDeed}
    (hd : ∀ how, d ≠ .ended how) (i : Nat) : (m.note id d).endings i = m.endings i := by
  cases d with
  | ended how => exact absurd rfl (hd how)
  | ask => simp [endings, note]
  | event e => simp [endings, note]

theorem endings_eq_zero_iff {m : Subscriptions} {id : Nat} :
    m.endings id = 0 ↔ ∀ how, (id, .ended how) ∉ m.trail := by
  rw [endings, List.countP_eq_zero]
  constructor
  · intro h how hmem
    simpa using h _ hmem
  · rintro h ⟨n, d⟩ hmem
    cases d with
    | ended how =>
      intro hn
      have hid : n = id := by simpa using hn
      exact h how (hid ▸ hmem)
    | ask => simp
    | event e => simp

/-- A subscription is brought nothing behind its end. -/
def Follows (later earlier : Nat × SubscriptionDeed) : Prop :=
  later.1 = earlier.1 → ∀ how e, earlier.2 = .ended how → later.2 ≠ .event e

/-- Each end was told exactly to the subscriptions that are over, once, and behind all else. -/
structure Told (m : Subscriptions) : Prop where
  endings_eq : ∀ id, m.endings id = if m.standing[id]?.any (!·.2) then 1 else 0
  quiet : m.trail.Pairwise Follows

namespace Told

variable {m m' : Subscriptions}

theorem congr (h : Told m) (hs : m'.standing = m.standing) (ht : m'.trail = m.trail) : Told m' := by
  refine ⟨fun id => ?_, ht ▸ h.quiet⟩
  rw [hs, ← h.endings_eq id, endings, endings, ht]

/-- Nothing was told to a subscription that is live but what its stream brought. -/
theorem not_mem_of_live (h : Told m) {id : Nat} (hl : m.isLive id = true) (how : StreamEnd) :
    (id, .ended how) ∉ m.trail := by
  obtain ⟨key, hk⟩ := isLive_iff.mp hl
  have hz : m.endings id = 0 := by rw [h.endings_eq id, hk]; rfl
  exact endings_eq_zero_iff.mp hz how

theorem note (h : Told m) (id : Nat) {d : SubscriptionDeed} (hd : ∀ how, d ≠ .ended how)
    (he : ∀ e, d = .event e → m.isLive id = true) : Told (m.note id d) := by
  refine ⟨fun i => ?_, List.pairwise_cons.mpr ⟨?_, h.quiet⟩⟩
  · rw [endings_note m id hd, note_standing, h.endings_eq i]
  · rintro ⟨n, x⟩ hmem hn how e hx hde
    have hlive := he e hde
    have hid : id = n := hn
    have hend : x = .ended how := hx
    subst hid hend
    exact h.not_mem_of_live hlive how hmem

theorem tellEnd (h : Told m) (id : Nat) (how : StreamEnd) : Told (m.tellEnd id how) := by
  by_cases hl : m.isLive id = true
  · have heq : m.tellEnd id how =
        (m.update id ({ · with live := false })).note id (.ended how) := by
      rw [Subscriptions.tellEnd, if_pos hl]
    refine ⟨fun i => ?_, ?_⟩
    · have hm : (m.update id ({ · with live := false })).endings i = m.endings i := rfl
      rw [tellEnd_standing, heq, endings_note_ended, hm, h.endings_eq i, List.getElem?_modify]
      obtain ⟨key, hk⟩ := isLive_iff.mp hl
      by_cases hi : id = i
      · subst hi; simp [hk, retired]
      · cases hs : m.standing[i]? <;> simp [hi]
    · rw [tellEnd_trail, if_pos hl]
      refine List.pairwise_cons.mpr ⟨?_, h.quiet⟩
      intro x _ _ _ e _ hde
      cases hde
  · have heq : m.tellEnd id how = m := by
      rw [Subscriptions.tellEnd, if_neg hl]
    rw [heq]
    exact h

theorem teardown (h : Told m) (id : Nat) : Told (m.teardown id) :=
  (h.congr (cancel_standing m id) (cancel_trail m id)).tellEnd id .cancelled

theorem teardownAll (h : Told m) (gone : List (StreamKey × Nat)) : Told (m.teardownAll gone) := by
  induction gone generalizing m with
  | nil => exact h
  | cons x rest ih => exact ih (h.teardown x.2)

theorem remove (h : Told m) (p : StreamKey → Bool) : Told (m.remove p).1 := by
  have hkept : Told { m with handles := m.handles.filter fun h => !p h.1 } := h.congr rfl rfl
  rw [remove_eq]
  exact hkept.teardownAll _

theorem finish (h : Told m) (id : Nat) (how : StreamEnd) : Told (m.finish id how) := by
  let kept : Subscriptions := { m with handles := m.handles.filter (·.2 != id) }
  have hset : (kept.update id ({ · with pump := .done, inbox := [] })).standing = m.standing :=
    kept.update_standing id (fun _ => rfl) (fun _ => rfl)
  exact (h.congr hset rfl).tellEnd id how

theorem subscribe (h : Told m) (key : StreamKey) : Told (m.subscribe key).1 := by
  have hr := h.remove (· == key)
  refine ⟨fun id => ?_, hr.quiet⟩
  have hend : (m.subscribe key).1.endings id = (m.remove (· == key)).1.endings id := rfl
  rw [hend, hr.endings_eq id, subscribe_standing, List.getElem?_append]
  by_cases hi : id < (m.remove (· == key)).1.standing.length
  · rw [if_pos hi]
  · rw [if_neg hi, List.getElem?_eq_none (Nat.le_of_not_lt hi)]
    cases hn : id - (m.remove (· == key)).1.standing.length <;> simp

theorem turned (h : Told m) {answer : Answer} {id : Nat} (ht : Turned m answer id m') :
    Told m' := by
  have hset (f : Subscription → Subscription) (hkey : ∀ s, (f s).key = s.key)
      (hlive : ∀ s, (f s).live = s.live) : Told (m.update id f) :=
    h.congr (m.update_standing id hkey hlive) rfl
  cases ht with
  | idle => exact h
  | stopped | refused | muted | failed | completed => exact h.finish id _
  | asked =>
    have hu := hset ({ · with pump := .opening }) (fun _ => rfl) (fun _ => rfl)
    exact hu.note id (fun _ hd => nomatch hd) (fun _ hd => nomatch hd)
  | granted => exact hset _ (fun _ => rfl) (fun _ => rfl)
  | brought s e rest hs hp hc hi hl =>
    have hu := hset ({ · with inbox := rest }) (fun _ => rfl) (fun _ => rfl)
    refine hu.note id (fun _ hd => nomatch hd) fun _ _ => ?_
    have hst : (m.update id ({ · with inbox := rest })).standing = m.standing :=
      m.update_standing id (fun _ => rfl) (fun _ => rfl)
    rw [isLive_iff, hst]
    exact ⟨s.key, standing_eq_some_iff.mpr ⟨s, hs, rfl, hl⟩⟩

theorem step (h : Told m) (s : Step) : Told (m.step s) := by
  cases s with
  | subscribe key => exact h.subscribe key
  | unsubscribe key => exact h.remove (· == key)
  | unsubscribeAll subject => exact h.remove (·.subject == subject)
  | unsubscribeEverything => exact h.remove fun _ => true
  | cancel id => exact h.congr (cancel_standing m id) (cancel_trail m id)
  | receive id item => exact h.congr (receive_standing m id item) (receive_trail m id item)
  | turn id answer => exact h.turned (m.turned answer id)

end Told

/-! ### Who is registered -/

/-- Those who stand are registered under their own keys, and nobody else. -/
structure Registered (m : Subscriptions) : Prop where
  handles_iff : ∀ key id, (key, id) ∈ m.handles ↔ m.standing[id]? = some (key, true)
  nodup : (m.handles.map Prod.fst).Nodup

namespace Registered

variable {m m' : Subscriptions}

theorem congr (h : Registered m) (hh : m'.handles = m.handles) (hs : m'.standing = m.standing) :
    Registered m' := by
  refine ⟨fun key id => ?_, hh ▸ h.nodup⟩
  rw [hh, hs]
  exact h.handles_iff key id

/-- A standing subscription is registered under no other key. -/
theorem key_eq (h : Registered m) {key key' : StreamKey} {id : Nat} (hm : (key, id) ∈ m.handles)
    (hm' : (key', id) ∈ m.handles) : key = key' := by
  have hk := (h.handles_iff key id).mp hm
  have hk' := (h.handles_iff key' id).mp hm'
  simpa [hk] using hk'

/-- No two subscriptions stand under one key. -/
theorem id_eq (h : Registered m) {key : StreamKey} {id id' : Nat} (hm : (key, id) ∈ m.handles)
    (hm' : (key, id') ∈ m.handles) : id = id' :=
  congrArg Prod.snd (List.inj_on_of_nodup_map h.nodup hm hm' rfl)

theorem nodup_ids (h : Registered m) : (m.handles.map Prod.snd).Nodup := by
  have hpairs := List.pairwise_map.mp h.nodup
  refine List.pairwise_map.mpr (hpairs.imp_of_mem ?_)
  rintro ⟨key, id⟩ ⟨key', id'⟩ hm hm' hne heq
  have hid : id = id' := heq
  exact hne (h.key_eq hm (hid ▸ hm'))

theorem remove (h : Registered m) (p : StreamKey → Bool) : Registered (m.remove p).1 := by
  refine ⟨fun key id => ?_, ?_⟩
  · rw [remove_handles, remove_standing, List.mem_filter, h.handles_iff]
    cases hs : m.standing[id]? with
    | none => simp
    | some q =>
      obtain ⟨key', live⟩ := q
      cases live with
      | false => split <;> simp_all [retired]
      | true =>
        have hown : (key', id) ∈ m.handles := (h.handles_iff key' id).mpr hs
        have hgone : id ∈ (m.handles.filter fun h => p h.1).map Prod.snd ↔ p key' = true := by
          simp only [List.mem_map, List.mem_filter, Prod.exists, exists_eq_right]
          constructor
          · rintro ⟨k, hk, hp⟩
            rw [h.key_eq hown hk]
            exact hp
          · intro hp
            exact ⟨key', hown, hp⟩
        by_cases hp : p key' = true
        · rw [Option.map_some, if_pos (hgone.mpr hp)]
          simp only [retired, Option.some.injEq, Prod.mk.injEq]
          constructor
          · rintro ⟨⟨rfl, -⟩, hn⟩; simp [hp] at hn
          · rintro ⟨-, hf⟩; cases hf
        · rw [Option.map_some, if_neg (fun hg => hp (hgone.mp hg))]
          simp only [Option.some.injEq, Prod.mk.injEq, and_true]
          constructor
          · exact fun hk => hk.1
          · rintro rfl; simp [hp]
  · rw [remove_handles]
    exact h.nodup.sublist (List.filter_sublist.map Prod.fst)

theorem subscribe (h : Registered m) (key : StreamKey) : Registered (m.subscribe key).1 := by
  have hr := h.remove (· == key)
  have hhandles : (m.subscribe key).1.handles =
      (m.remove (· == key)).1.handles ++ [(key, m.all.length)] := rfl
  have hlen : (m.remove (· == key)).1.standing.length = m.all.length := by simp
  refine ⟨fun k id => ?_, ?_⟩
  · rw [hhandles, subscribe_standing, List.mem_append, hr.handles_iff, List.mem_singleton]
    by_cases hi : id < m.all.length
    · have hne : (k, id) ≠ (key, m.all.length) := by
        intro heq
        have hid : id = m.all.length := congrArg Prod.snd heq
        omega
      rw [List.getElem?_append_left (by omega), or_iff_left hne]
    · rw [List.getElem?_append_right (by omega), List.getElem?_eq_none (by omega), hlen]
      by_cases he : id = m.all.length
      · simp [he, eq_comm]
      · have hgap : id - m.all.length ≠ 0 := by omega
        simp [he, hgap]
  · -- The new key was free: whoever held it has just been removed.
    have hfree : key ∉ (m.remove (· == key)).1.handles.map Prod.fst := by
      simp
    rw [hhandles, List.map_append, List.nodup_append]
    refine ⟨hr.nodup, by simp, ?_⟩
    intro k hk k' hk' heq
    have hkey : k' = key := List.mem_singleton.mp hk'
    rw [heq, hkey] at hk
    exact hfree hk

theorem finish (h : Registered m) (id : Nat) (how : StreamEnd) : Registered (m.finish id how) := by
  refine ⟨fun key i => ?_, ?_⟩
  · rw [finish_handles, finish_standing, List.mem_filter, h.handles_iff, List.getElem?_modify]
    cases hs : m.standing[i]? with
    | none => simp
    | some q =>
      by_cases hi : id = i
      · simp [hi, retired]
      · have hne : i ≠ id := fun h' => hi h'.symm
        simp [hi, hne]
  · rw [finish_handles]
    exact h.nodup.sublist (List.filter_sublist.map Prod.fst)

theorem turned (h : Registered m) {answer : Answer} {id : Nat} (ht : Turned m answer id m') :
    Registered m' := by
  have hset (f : Subscription → Subscription) (hkey : ∀ s, (f s).key = s.key)
      (hlive : ∀ s, (f s).live = s.live) : Registered (m.update id f) :=
    h.congr rfl (m.update_standing id hkey hlive)
  cases ht with
  | idle => exact h
  | stopped | refused | muted | failed | completed => exact h.finish id _
  | asked =>
    have hu := hset ({ · with pump := .opening }) (fun _ => rfl) (fun _ => rfl)
    exact hu.congr rfl rfl
  | granted => exact hset _ (fun _ => rfl) (fun _ => rfl)
  | brought s e rest =>
    have hu := hset ({ · with inbox := rest }) (fun _ => rfl) (fun _ => rfl)
    exact hu.congr rfl rfl

theorem step (h : Registered m) (s : Step) : Registered (m.step s) := by
  cases s with
  | subscribe key => exact h.subscribe key
  | unsubscribe key => exact h.remove (· == key)
  | unsubscribeAll subject => exact h.remove (·.subject == subject)
  | unsubscribeEverything => exact h.remove fun _ => true
  | cancel id => exact h.congr (cancel_handles m id) (cancel_standing m id)
  | receive id item => exact h.congr (receive_handles m id item) (receive_standing m id item)
  | turn id answer => exact h.turned (m.turned answer id)

end Registered

/-! ### Whole runs -/

theorem step_keys (m : Subscriptions) (s : Step) :
    (m.step s).standing.map Prod.fst = m.standing.map Prod.fst ++ subscribed [s] := by
  have hsame {m' : Subscriptions} (h : m'.standing = m.standing) :
      m'.standing.map Prod.fst = m.standing.map Prod.fst ++ [] := by simp [h]
  have hremove (p : StreamKey → Bool) :
      (m.remove p).1.standing.map Prod.fst = m.standing.map Prod.fst ++ [] := by
    rw [remove_eq, teardownAll_keys, List.append_nil]
    rfl
  have hfinish (id : Nat) (how : StreamEnd) :
      (m.finish id how).standing.map Prod.fst = m.standing.map Prod.fst ++ [] := by
    rw [finish_standing, map_fst_modify_retired, List.append_nil]
  cases s with
  | subscribe key =>
    have hr := hremove (· == key)
    rw [List.append_nil] at hr
    exact (congrArg _ (subscribe_standing m key)).trans (by rw [List.map_append, hr]; rfl)
  | unsubscribe key => exact hremove (· == key)
  | unsubscribeAll subject => exact hremove (·.subject == subject)
  | unsubscribeEverything => exact hremove fun _ => true
  | cancel id => exact hsame (cancel_standing m id)
  | receive id item => exact hsame (receive_standing m id item)
  | turn id answer =>
    have hset (f : Subscription → Subscription) (hkey : ∀ s, (f s).key = s.key)
        (hlive : ∀ s, (f s).live = s.live) := hsame (m.update_standing id hkey hlive)
    change (m.turn answer id).standing.map Prod.fst = m.standing.map Prod.fst ++ []
    have ht := m.turned answer id
    generalize m.turn answer id = m' at ht ⊢
    cases ht with
    | idle => exact hsame rfl
    | stopped | refused | muted | failed | completed => exact hfinish id _
    | asked => exact hset ({ · with pump := .opening }) (fun _ => rfl) (fun _ => rfl)
    | granted => exact hset _ (fun _ => rfl) (fun _ => rfl)
    | brought s e rest => exact hset ({ · with inbox := rest }) (fun _ => rfl) (fun _ => rfl)

theorem run_keys (m : Subscriptions) (steps : List Step) :
    (m.run steps).standing.map Prod.fst = m.standing.map Prod.fst ++ subscribed steps := by
  induction steps generalizing m with
  | nil => simp [run, subscribed]
  | cons s rest ih =>
    have hsplit : subscribed (s :: rest) = subscribed [s] ++ subscribed rest := by
      simp [subscribed, ← List.filterMap_append]
    calc (m.run (s :: rest)).standing.map Prod.fst
        = (m.step s).standing.map Prod.fst ++ subscribed rest := ih (m.step s)
      _ = m.standing.map Prod.fst ++ (subscribed [s] ++ subscribed rest) := by
        rw [step_keys, List.append_assoc]
      _ = m.standing.map Prod.fst ++ subscribed (s :: rest) := by rw [hsplit]

theorem registered_run (steps : List Step) : Registered (run {} steps) := by
  refine run_induction (fun m s h => h.step s) ⟨fun key id => ?_, ?_⟩ steps
  · simp [standing]
  · simp

theorem told_run (steps : List Step) : Told (run {} steps) := by
  refine run_induction (fun m s h => h.step s) ⟨fun id => ?_, ?_⟩ steps
  · simp [endings, standing]
  · simp

theorem standing_run_iff {steps : List Step} {id : Nat} {key : StreamKey} :
    (run {} steps).standing[id]? = some (key, true) ↔
      (subscribed steps)[id]? = some key ∧ (run {} steps).endings id = 0 := by
  have hkeys : (run {} steps).standing.map Prod.fst = subscribed steps := run_keys {} steps
  rw [← hkeys, List.getElem?_map, (told_run steps).endings_eq id]
  cases (run {} steps).standing[id]? with
  | none => simp
  | some q =>
    obtain ⟨k, live⟩ := q
    cases live <;> simp

theorem size_run (steps : List Step) :
    (run {} steps).size =
      (List.range (subscribed steps).length).countP fun id => (run {} steps).endings id = 0 := by
  have h := registered_run steps
  have hperm : ((run {} steps).handles.map Prod.snd).Perm
      ((List.range (subscribed steps).length).filter fun id => (run {} steps).endings id = 0) := by
    refine (List.perm_ext_iff_of_nodup h.nodup_ids (List.nodup_range.filter _)).mpr fun id => ?_
    simp only [List.mem_map, Prod.exists, exists_eq_right, h.handles_iff, standing_run_iff,
      List.mem_filter, List.mem_range, decide_eq_true_eq]
    constructor
    · rintro ⟨key, hk, hz⟩
      exact ⟨(List.getElem?_eq_some_iff.mp hk).1, hz⟩
    · rintro ⟨hlt, hz⟩
      exact ⟨(subscribed steps)[id], List.getElem?_eq_getElem hlt, hz⟩
  rw [List.countP_eq_length_filter, ← hperm.length_eq, List.length_map]
  rfl

theorem isActive_run_iff (steps : List Step) (key : StreamKey) :
    (run {} steps).isActive key = true ↔
      ∃ id, (subscribed steps)[id]? = some key ∧ (run {} steps).endings id = 0 := by
  simp only [← standing_run_iff, ← (registered_run steps).handles_iff]
  rw [isActive, List.lookup_isSome_iff]
  constructor
  · rintro ⟨⟨k, id⟩, hm, hk⟩
    have hkey : key = k := by simpa using hk
    exact ⟨id, hkey ▸ hm⟩
  · rintro ⟨id, hm⟩
    exact ⟨(key, id), hm, by simp⟩

/-- In every order of calls, cancellations, arrivals and turns: those registered are the
subscriptions whose end was not told yet, each under the key it was made for. So a key has one at
most, the counts are theirs, an end is told once to everyone who is no longer registered, and no
event comes behind it. -/
theorem handles_are_unfinished (steps : List Step) :
    let m := run {} steps
    (∀ key id, (key, id) ∈ m.handles ↔ (subscribed steps)[id]? = some key ∧ m.endings id = 0) ∧
    (∀ key id id', (subscribed steps)[id]? = some key → m.endings id = 0 →
      (subscribed steps)[id']? = some key → m.endings id' = 0 → id = id') ∧
    m.size = ((List.range (subscribed steps).length).countP fun id => m.endings id = 0) ∧
    (∀ key, m.isActive key = true ↔
      ∃ id, (subscribed steps)[id]? = some key ∧ m.endings id = 0) ∧
    (∀ id, m.endings id ≤ 1) ∧
    (∀ id < (subscribed steps).length, (∀ key, (key, id) ∉ m.handles) → m.endings id = 1) ∧
    (∀ id how later earlier, m.trail = later ++ (id, .ended how) :: earlier →
      ∀ e, (id, .event e) ∉ later) := by
  intro m
  have hreg : Registered m := registered_run steps
  have htold : Told m := told_run steps
  have hiff (key : StreamKey) (id : Nat) :
      (key, id) ∈ m.handles ↔ (subscribed steps)[id]? = some key ∧ m.endings id = 0 := by
    rw [hreg.handles_iff, standing_run_iff]
  have hone (id : Nat) : m.endings id ≤ 1 := by
    rw [htold.endings_eq id]
    split <;> omega
  refine ⟨hiff, ?_, size_run steps, isActive_run_iff steps, hone, ?_, ?_⟩
  · intro key id id' hk hz hk' hz'
    exact hreg.id_eq ((hiff key id).mpr ⟨hk, hz⟩) ((hiff key id').mpr ⟨hk', hz'⟩)
  · intro id hlt hgone
    have hnz : m.endings id ≠ 0 := fun hz =>
      hgone _ ((hiff _ id).mpr ⟨List.getElem?_eq_getElem hlt, hz⟩)
    have hle := hone id
    omega
  · intro id how later earlier htrail e hmem
    have hquiet := htold.quiet
    rw [htrail, List.pairwise_append] at hquiet
    exact hquiet.2.2 _ hmem _ List.mem_cons_self rfl how e rfl rfl

/-- A subscription whose key was taken over, after an event and before what else its stream
brought. -/
def takenOver : List Step :=
  let key : StreamKey := ⟨"p", .rawOutput⟩
  [.subscribe key, .turn 0 .granted, .turn 0 .granted, .receive 0 (.event (.rawOutput [1])),
    .receive 0 (.event (.rawOutput [2])), .turn 0 .granted, .subscribe key, .turn 0 .granted]

theorem takenOver_ended_once :
    (0 < (subscribed takenOver).length ∧ ∀ key, (key, 0) ∉ (run {} takenOver).handles) ∧
      (run {} takenOver).endings 0 = 1 := by
  have hlt : 0 < (subscribed takenOver).length := by decide
  have hhandles : (run {} takenOver).handles = [(⟨"p", .rawOutput⟩, 1)] := by decide
  have hgone : ∀ key, (key, 0) ∉ (run {} takenOver).handles := by
    intro key
    simp [hhandles]
  exact ⟨⟨hlt, hgone⟩, (handles_are_unfinished takenOver).2.2.2.2.2.1 0 hlt hgone⟩

end Vigil.Subscriptions
