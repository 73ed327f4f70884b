import Mathlib.Data.Finset.Card
import Mathlib.Data.List.Dedup
import Vigil.Proofs.Streams.Renewals

/-! How many streams are asked for. A subscription asks once; until then it waits, and only as many
wait as are registered. So what has been asked for and what may still be asked for grows by no more
than a set of keys when that set is subscribed to, and not at all otherwise. -/
namespace Vigil

/-- Its stream is still to be asked for. -/
def Subscription.waits (s : Subscription) : Bool := s.pump == .called && !s.cancelled

namespace Subscriptions

open Subscription (Course)

variable {m : Subscriptions} {keys : List StreamKey}

/-- How many streams were asked for. -/
def asks (m : Subscriptions) : Nat := m.trail.countP fun d => d.2 = .ask

/-- How many subscriptions have not asked for their streams, but will if nobody cancels them. -/
def waiting (m : Subscriptions) : Nat := m.all.countP (·.waits)

/-! ### Who waits is registered -/

theorem countP_eq_range {α : Type} (p : α → Bool) (l : List α) :
    l.countP p = (List.range l.length).countP fun i => l[i]?.any p := by
  have hindexed : (List.range l.length).map (l[·]?) = l.map some := by
    apply List.ext_getElem?
    intro i
    rcases Nat.lt_or_ge i l.length with hi | hi
    · simp [hi]
    · simp [hi]
  have hcount := congrArg (List.countP (·.any p)) hindexed
  rw [List.countP_map, List.countP_map] at hcount
  exact hcount.symm

theorem size_eq_countP (h : Registered m) : m.size = m.all.countP (·.live) := by
  have hperm : (m.handles.map Prod.snd).Perm
      ((List.range m.all.length).filter fun id => m.isLive id) := by
    refine (List.perm_ext_iff_of_nodup h.nodup_ids (List.nodup_range.filter _)).mpr fun id => ?_
    simp only [List.mem_map, Prod.exists, exists_eq_right, h.handles_iff, List.mem_filter,
      List.mem_range, ← isLive_iff]
    exact ⟨fun hl => ⟨lt_of_isLive hl, hl⟩, And.right⟩
  have hlength : m.size = (m.handles.map Prod.snd).length := (List.length_map _).symm
  rw [hlength, hperm.length_eq, ← List.countP_eq_length_filter]
  exact (countP_eq_range (·.live) m.all).symm

theorem size_le_card (h : m.Within keys) : m.size ≤ keys.toFinset.card := by
  have hsubset : (m.handles.map Prod.fst).toFinset ⊆ keys.toFinset := by
    intro key hkey
    obtain ⟨⟨k, id⟩, hm, rfl⟩ := List.mem_map.mp (List.mem_toFinset.mp hkey)
    exact List.mem_toFinset.mpr (h.mem_of_handles hm)
  have hlength : m.size = (m.handles.map Prod.fst).toFinset.card := by
    rw [List.toFinset_card_of_nodup h.registered.nodup, List.length_map]
    rfl
  rw [hlength]
  exact Finset.card_le_card hsubset

theorem waiting_le_size (h : m.Within keys) : m.waiting ≤ m.size := by
  rw [size_eq_countP h.registered]
  apply List.countP_mono_left
  intro s hs hwaits
  obtain ⟨id, hid⟩ := List.mem_iff_getElem?.mp hs
  obtain ⟨hcalled, hgoes⟩ : s.pump = .called ∧ s.cancelled = false := by
    simpa [Subscription.waits] using hwaits
  by_contra hl
  have hc : m.course? id = some ⟨s, m.deedsOf id⟩ := by rw [course?, hid, Option.map_some]
  have hsilent := h.silent hc ((Bool.not_eq_true _).mp hl)
  rcases hsilent.halted with hcancelled | hdone
  · exact absurd (hgoes.symm.trans hcancelled) Bool.false_ne_true
  · exact absurd (hcalled.symm.trans hdone) (by simp)

/-! ### What the operations do to both numbers -/

theorem countP_modify {α : Type} (p : α → Bool) (f : α → α) {l : List α} {i : Nat} {x : α}
    (h : l[i]? = some x) :
    (l.modify i f).countP p + (if p x then 1 else 0) = l.countP p + if p (f x) then 1 else 0 := by
  induction l generalizing i with
  | nil => cases h
  | cons y rest ih =>
    cases i with
    | zero =>
      obtain rfl : y = x := by simpa using h
      simp only [List.modify_zero_cons, List.countP_cons]
      omega
    | succ i =>
      have hrest := ih (i := i) (by simpa using h)
      simp only [List.modify_succ_cons, List.countP_cons]
      omega

theorem note_asks (m : Subscriptions) (id : Nat) (d : SubscriptionDeed) :
    (m.note id d).asks = m.asks + if d = .ask then 1 else 0 := by
  by_cases hd : d = .ask <;> simp [asks, note, hd]

theorem update_waiting_le (m : Subscriptions) (id : Nat) {f : Subscription → Subscription}
    (hf : ∀ s, (f s).waits = true → s.waits = true) : (m.update id f).waiting ≤ m.waiting := by
  cases hs : m.all[id]? with
  | none =>
    have hsame : m.all.modify id f = m.all :=
      List.modify_eq_self (List.getElem?_eq_none_iff.mp hs)
    simp [waiting, update, hsame]
  | some s =>
    have hcount := countP_modify (·.waits) f hs
    have hless : (if (f s).waits then 1 else 0) ≤ if s.waits then 1 else 0 := by
      cases hw : (f s).waits with
      | false => simp
      | true => simp [hf s hw]
    change (m.all.modify id f).countP (·.waits) ≤ m.all.countP (·.waits)
    omega

theorem tellEnd_asks (m : Subscriptions) (id : Nat) (how : StreamEnd) :
    (m.tellEnd id how).asks = m.asks := by
  unfold asks
  rw [tellEnd_trail]
  split <;> simp

theorem tellEnd_waiting_le (m : Subscriptions) (id : Nat) (how : StreamEnd) :
    (m.tellEnd id how).waiting ≤ m.waiting := by
  unfold tellEnd
  split
  · exact m.update_waiting_le id fun s hs => hs
  · exact Nat.le_refl _

/-- Nothing is asked for, and nobody begins to wait. -/
def Calms (m m' : Subscriptions) : Prop := m'.asks = m.asks ∧ m'.waiting ≤ m.waiting

namespace Calms

theorem refl (m : Subscriptions) : m.Calms m := ⟨rfl, Nat.le_refl _⟩

theorem trans {m' m'' : Subscriptions} (h : m.Calms m') (h' : m'.Calms m'') : m.Calms m'' :=
  ⟨h'.1.trans h.1, Nat.le_trans h'.2 h.2⟩

theorem update (m : Subscriptions) (id : Nat) {f : Subscription → Subscription}
    (hf : ∀ s, (f s).waits = true → s.waits = true) : m.Calms (m.update id f) :=
  ⟨rfl, m.update_waiting_le id hf⟩

theorem tellEnd (m : Subscriptions) (id : Nat) (how : StreamEnd) : m.Calms (m.tellEnd id how) :=
  ⟨m.tellEnd_asks id how, m.tellEnd_waiting_le id how⟩

theorem cancel (m : Subscriptions) (id : Nat) : m.Calms (m.cancel id) :=
  update m id fun s hs => by simp [Subscription.waits] at hs

theorem remove (m : Subscriptions) (p : StreamKey → Bool) : m.Calms (m.remove p).1 := by
  have hall (m : Subscriptions) (gone : List (StreamKey × Nat)) : m.Calms (m.teardownAll gone) := by
    induction gone generalizing m with
    | nil => exact refl m
    | cons h rest ih =>
      have hone : m.Calms (m.teardown h.2) := (cancel m h.2).trans (tellEnd _ h.2 .cancelled)
      exact hone.trans (ih (m.teardown h.2))
  have hkept : m.Calms { m with handles := m.handles.filter fun h => !p h.1 } :=
    ⟨rfl, Nat.le_refl _⟩
  rw [remove_eq]
  exact hkept.trans (hall _ _)

theorem finish (m : Subscriptions) (id : Nat) (how : StreamEnd) : m.Calms (m.finish id how) := by
  let kept : Subscriptions := { m with handles := m.handles.filter (·.2 != id) }
  have hkept : m.Calms kept := ⟨rfl, Nat.le_refl _⟩
  have hhalted : kept.Calms (kept.update id ({ · with pump := .done, inbox := [] })) :=
    update kept id fun s hs => by simp [Subscription.waits] at hs
  exact (hkept.trans hhalted).trans (tellEnd _ id how)

theorem receive (m : Subscriptions) (id : Nat) (item : StreamItem) :
    m.Calms (m.receive id item) := by
  refine update m id fun s hs => ?_
  split at hs <;> exact hs

theorem sum_le {m' : Subscriptions} (h : m.Calms m') :
    m'.asks + m'.waiting ≤ m.asks + m.waiting := by
  have hasks := h.1
  have hwaiting := h.2
  omega

end Calms

/-- Who asks waits no longer. -/
theorem asked_sum {id : Nat} {s : Subscription} (hs : m.all[id]? = some s) (hp : s.pump = .called)
    (hc : s.cancelled = false) :
    let m' := (m.update id ({ · with pump := .opening })).note id .ask
    m'.asks + m'.waiting = m.asks + m.waiting := by
  intro m'
  have hasks : m'.asks = m.asks + 1 := note_asks _ id .ask
  have hwaited : s.waits = true := by simp [Subscription.waits, hp, hc]
  have hcount := countP_modify (·.waits) ({ · with pump := .opening }) hs
  have hgone : ({ s with pump := .opening } : Subscription).waits = false := rfl
  rw [if_pos hwaited, hgone, if_neg (by decide)] at hcount
  have hwaiting : m'.waiting + 1 = m.waiting := hcount
  omega

theorem turn_sum_le (m : Subscriptions) (answer : Answer) (id : Nat) :
    (m.turn answer id).asks + (m.turn answer id).waiting ≤ m.asks + m.waiting := by
  have ht := m.turned answer id
  generalize m.turn answer id = m' at ht ⊢
  cases ht with
  | idle => exact (Calms.refl m).sum_le
  | stopped | refused | muted | failed | completed => exact (Calms.finish m id _).sum_le
  | asked s hs hp hc => exact Nat.le_of_eq (asked_sum hs hp hc)
  | granted => exact (Calms.update m id fun s hs => by simp [Subscription.waits] at hs).sum_le
  | brought s e rest =>
    have hread : m.Calms (m.update id ({ · with inbox := rest })) :=
      Calms.update m id fun s hs => hs
    have htold : (m.update id ({ · with inbox := rest })).Calms
        ((m.update id ({ · with inbox := rest })).note id (.event e)) :=
      ⟨note_asks _ id (.event e), Nat.le_refl _⟩
    exact (hread.trans htold).sum_le

/-- Only a subscription brings more to ask for. -/
theorem step_sum_le {s : Step} (hs : ∀ key, s ≠ .subscribe key) :
    (m.step s).asks + (m.step s).waiting ≤ m.asks + m.waiting := by
  cases s with
  | subscribe key => exact absurd rfl (hs key)
  | unsubscribe key => exact (Calms.remove m (· == key)).sum_le
  | unsubscribeAll subject => exact (Calms.remove m (·.subject == subject)).sum_le
  | unsubscribeEverything => exact (Calms.remove m fun _ => true).sum_le
  | cancel id => exact (Calms.cancel m id).sum_le
  | receive id item => exact (Calms.receive m id item).sum_le
  | turn id answer => exact m.turn_sum_le answer id

/-- A set of subscriptions asks for nothing yet, and may come to ask for no more than its keys. -/
theorem renew_sum_le (h : m.Within keys) :
    (m.renew keys).asks + (m.renew keys).waiting ≤ m.asks + keys.toFinset.card := by
  have hasks (new : List StreamKey) (m : Subscriptions) : (m.renew new).asks = m.asks := by
    induction new generalizing m with
    | nil => rfl
    | cons key rest ih =>
      have hone : (m.subscribe key).1.asks = m.asks := (Calms.remove m (· == key)).1
      exact (ih (m.subscribe key).1).trans hone
  have hwithin := h.renew
  have hwaiting := waiting_le_size hwithin
  have hsize := size_le_card hwithin
  rw [hasks]
  omega

end Subscriptions

end Vigil
