import Vigil.Proofs.Streams.Courses

/-! What takes registrations away ends the subscriptions that match, each once and for good, and
leaves the others as they are. -/
namespace Vigil.Subscriptions

open Subscription (Act Course)

variable {m : Subscriptions}

theorem isLive_teardown_of_ne {n id : Nat} (hne : n ≠ id) :
    (m.teardown n).isLive id = m.isLive id := by
  rw [isLive_eq, isLive_eq, course?_teardown]
  simp [hne]

theorem teardown_trail {id : Nat} (hl : m.isLive id = true) :
    (m.teardown id).trail = (id, .ended .cancelled) :: m.trail := by
  have hlive : (m.cancel id).isLive id = true := by
    rw [isLive_iff, cancel_standing]
    exact isLive_iff.mp hl
  rw [teardown, tellEnd_trail, if_pos hlive, cancel_trail]

theorem teardownAll_trail {gone : List (StreamKey × Nat)} (hlive : ∀ h ∈ gone, m.isLive h.2 = true)
    (hnodup : (gone.map Prod.snd).Nodup) :
    (m.teardownAll gone).trail =
      (gone.map Prod.snd).reverse.map (·, .ended .cancelled) ++ m.trail := by
  induction gone generalizing m with
  | nil => rfl
  | cons x rest ih =>
    obtain ⟨hnew, hrest⟩ := List.nodup_cons.mp hnodup
    have hlive' : ∀ h ∈ rest, (m.teardown x.2).isLive h.2 = true := by
      intro h hh
      have hne : x.2 ≠ h.2 := fun heq => hnew (heq ▸ List.mem_map_of_mem hh)
      rw [isLive_teardown_of_ne hne]
      exact hlive h (List.mem_cons_of_mem _ hh)
    have htrail : (m.teardownAll (x :: rest)).trail = ((m.teardown x.2).teardownAll rest).trail := rfl
    rw [htrail, ih hlive' hrest, teardown_trail (hlive x List.mem_cons_self)]
    simp

/-- The numbers of those that are registered under a key that matches. -/
def matching (m : Subscriptions) (p : StreamKey → Bool) : List Nat :=
  (m.handles.filter fun h => p h.1).map Prod.snd

theorem mem_matching {p : StreamKey → Bool} {id : Nat} :
    id ∈ m.matching p ↔ ∃ key, (key, id) ∈ m.handles ∧ p key = true := by
  simp [matching]

theorem remove_count (p : StreamKey → Bool) : (m.remove p).2 = (m.matching p).length := by
  simp [remove, matching, List.partition_eq_filter_filter]

namespace Registered

theorem isLive_of_mem (h : Registered m) {key : StreamKey} {id : Nat} (hm : (key, id) ∈ m.handles) :
    m.isLive id = true :=
  isLive_iff.mpr ⟨key, (h.handles_iff key id).mp hm⟩

theorem nodup_matching (h : Registered m) (p : StreamKey → Bool) : (m.matching p).Nodup :=
  h.nodup_ids.sublist (List.filter_sublist.map Prod.snd)

theorem remove_trail (h : Registered m) (p : StreamKey → Bool) :
    (m.remove p).1.trail = (m.matching p).reverse.map (·, .ended .cancelled) ++ m.trail := by
  rw [remove_eq]
  refine teardownAll_trail (fun x hx => ?_) (h.nodup_matching p)
  exact h.isLive_of_mem (List.mem_filter.mp hx).1

theorem length_matching_le (h : Registered m) (key : StreamKey) :
    (m.matching (· == key)).length ≤ 1 := by
  have hnodup := h.nodup_matching (· == key)
  have hkey {id : Nat} (hid : id ∈ m.matching (· == key)) : (key, id) ∈ m.handles := by
    obtain ⟨k, hk, heq⟩ := mem_matching.mp hid
    rw [beq_iff_eq.mp heq] at hk
    exact hk
  cases hids : m.matching (· == key) with
  | nil => simp
  | cons a rest =>
    cases rest with
    | nil => simp
    | cons b rest =>
      rw [hids] at hnodup hkey
      have hab : a = b := h.id_eq (hkey (by simp)) (hkey (by simp))
      simp [hab] at hnodup

end Registered

/-- The answer of a call that takes registrations away, as a number; a subscription has none. -/
def answerOf (m : Subscriptions) : Step → Option Nat
  | .unsubscribe key => some (m.unsubscribe key).2.toNat
  | .unsubscribeAll subject => some (m.unsubscribeAll subject).2
  | .unsubscribeEverything => some m.unsubscribeEverything.2
  | .subscribe _ | .cancel _ | .receive _ _ | .turn _ _ => none

theorem step_trail (h : Registered m) {op : Step} {p : StreamKey → Bool} (hop : op.drops? = some p) :
    (m.step op).trail = (m.matching p).reverse.map (·, .ended .cancelled) ++ m.trail := by
  cases op with
  | subscribe key | unsubscribe key =>
    obtain rfl := Option.some.inj hop
    exact h.remove_trail (· == key)
  | unsubscribeAll subject =>
    obtain rfl := Option.some.inj hop
    exact h.remove_trail (·.subject == subject)
  | unsubscribeEverything =>
    obtain rfl := Option.some.inj hop
    exact h.remove_trail fun _ => true
  | cancel | receive | turn => cases hop

theorem answerOf_eq (h : Registered m) {op : Step} {p : StreamKey → Bool} (hop : op.drops? = some p)
    {n : Nat} (hn : m.answerOf op = some n) : n = (m.matching p).length := by
  cases op with
  | unsubscribe key =>
    obtain rfl := Option.some.inj hop
    have hanswer : (m.unsubscribe key).2 = ((m.matching (· == key)).length != 0) := by
      rw [← remove_count]
      rfl
    obtain rfl := Option.some.inj hn
    rw [hanswer]
    -- A key has one registration at most, so whether there was one says how many.
    rcases Nat.le_one_iff_eq_zero_or_eq_one.mp (h.length_matching_le key) with hzero | hone
    · simp [hzero]
    · simp [hone]
  | unsubscribeAll subject =>
    obtain rfl := Option.some.inj hop
    obtain rfl := Option.some.inj hn
    exact m.remove_count _
  | unsubscribeEverything =>
    obtain rfl := Option.some.inj hop
    obtain rfl := Option.some.inj hn
    exact m.remove_count _
  | subscribe => cases hn
  | cancel | receive | turn => cases hop

theorem actOn_of_drops {op : Step} {p : StreamKey → Bool} (hop : op.drops? = some p) (id : Nat)
    (key : StreamKey) : op.actOn id key = if p key then some .drop else none := by
  cases op with
  | subscribe | unsubscribe | unsubscribeAll | unsubscribeEverything =>
    simp [Step.actOn, hop]
  | cancel | receive | turn => cases hop

theorem course?_drops {op : Step} {p : StreamKey → Bool} (h : Registered m) (hop : op.drops? = some p)
    {key : StreamKey} {id : Nat} (hm : (key, id) ∈ m.handles) :
    ∃ c, m.course? id = some c ∧ c.sub.key = key ∧ c.sub.live = true ∧
      (m.step op).course? id = some (if p key then c.teardown else c) := by
  obtain ⟨s, hs, hkey, hl⟩ := standing_eq_some_iff.mp ((h.handles_iff key id).mp hm)
  have hc : m.course? id = some ⟨s, m.deedsOf id⟩ := by rw [course?, hs, Option.map_some]
  refine ⟨_, hc, hkey, hl, ?_⟩
  have hstep := course?_step h hc op
  rw [actOn_of_drops hop, hkey] at hstep
  rw [hstep]
  cases p key with
  | true => simp [Course.run, Course.step, Course.drop, hl]
  | false => rfl

/-- Whatever has happened: a call that takes registrations away tells everyone registered under a
key that matches, and nobody else, one end, and answers how many they are. They are never told
anything again, whatever their streams had brought or will bring. Who does not match stays
registered, with what is still to be read. -/
theorem removal_ends_matching (steps : List Step) {op : Step} {p : StreamKey → Bool}
    (hop : op.drops? = some p) :
    let m := run {} steps
    let m' := m.step op
    ∃ ids : List Nat, ids.Nodup ∧
      (∀ id, id ∈ ids ↔
        ∃ key, (subscribed steps)[id]? = some key ∧ m.endings id = 0 ∧ p key = true) ∧
      m'.trail = ids.map (·, .ended .cancelled) ++ m.trail ∧
      (∀ n, m.answerOf op = some n → n = ids.length) ∧
      (∀ id ∈ ids, ∀ later, (m'.run later).deedsOf id = m.deedsOf id ++ [.ended .cancelled]) ∧
      (∀ key id, (key, id) ∈ m.handles → p key = false →
        (key, id) ∈ m'.handles ∧ m'.all[id]? = m.all[id]? ∧ m'.deedsOf id = m.deedsOf id) := by
  intro m m'
  have h : Registered m := registered_run steps
  have h' : Registered m' := h.step op
  refine ⟨(m.matching p).reverse, List.nodup_reverse.mpr (h.nodup_matching p), fun id => ?_,
    step_trail h hop, fun n hn => ?_, fun id hid later => ?_, fun key id hm hp => ?_⟩
  · rw [List.mem_reverse, mem_matching]
    simp only [m, h.handles_iff, standing_run_iff, and_assoc]
  · rw [List.length_reverse]
    exact answerOf_eq h hop hn
  · obtain ⟨key, hm, hp⟩ := mem_matching.mp (List.mem_reverse.mp hid)
    obtain ⟨c, hc, hkey, hl, hstep⟩ := course?_drops h hop hm
    rw [if_pos hp] at hstep
    rw [Course.teardown_of_live hl] at hstep
    rw [deedsOf_run_of_silent h' hstep ⟨rfl, .inl rfl⟩, deedsOf_of_course? hstep,
      deedsOf_of_course? hc]
    rfl
  · obtain ⟨c, hc, hkey, hl, hstep⟩ := course?_drops h hop hm
    rw [if_neg (by simp [hp])] at hstep
    have hs := all_of_course? hstep
    refine ⟨?_, ?_, ?_⟩
    · rw [h'.handles_iff]
      exact standing_eq_some_iff.mpr ⟨c.sub, hs, hkey, hl⟩
    · rw [hs, all_of_course? hc]
    · rw [deedsOf_of_course? hstep, deedsOf_of_course? hc]

/-- Three streams that have brought what nobody has read yet. -/
def unread : List Step :=
  [.subscribe ⟨"p", .rawOutput⟩, .subscribe ⟨"p", .issues⟩, .subscribe ⟨"q", .rawOutput⟩,
    .turn 0 .later, .turn 1 .later, .turn 2 .later,
    .turn 0 .granted, .turn 1 .granted, .turn 2 .granted,
    .receive 0 (.event (.rawOutput [1])), .receive 0 .close,
    .receive 1 (.error ⟨.unavailable, "gone"⟩), .receive 2 (.event (.rawOutput [2]))]

theorem unread_dropped :
    let m := run {} unread
    let m' := m.step (.unsubscribeAll "p")
    Step.drops? (.unsubscribeAll "p") = some (·.subject == "p") ∧
    ∃ ids : List Nat, ids.length = 2 ∧
      (0 ∈ ids ∧ ∀ later, (m'.run later).deedsOf 0 = [.ask, .ended .cancelled]) ∧
      ((⟨"q", .rawOutput⟩, 2) ∈ m.handles ∧ (⟨"q", .rawOutput⟩, 2) ∈ m'.handles ∧
        m'.all[2]? = m.all[2]?) := by
  intro m m'
  have hop : Step.drops? (.unsubscribeAll "p") = some (·.subject == "p") := rfl
  have hanswer : m.answerOf (.unsubscribeAll "p") = some 2 := by decide
  have hdeeds : m.deedsOf 0 = [.ask] := by decide
  have hkept : (⟨"q", .rawOutput⟩, 2) ∈ m.handles := by decide
  obtain ⟨ids, -, hids, -, hcount, hsilent, hothers⟩ := removal_ends_matching unread hop
  have hmem : 0 ∈ ids := (hids 0).mpr ⟨⟨"p", .rawOutput⟩, by decide, by decide, by decide⟩
  refine ⟨hop, ids, (hcount 2 hanswer).symm, ⟨hmem, fun later => ?_⟩, hkept, ?_⟩
  · exact (hsilent 0 hmem later).trans (congrArg (· ++ [.ended .cancelled]) hdeeds)
  · obtain ⟨hhandles, hall, -⟩ := hothers ⟨"q", .rawOutput⟩ 2 hkept (by decide)
    exact ⟨hhandles, hall⟩

end Vigil.Subscriptions
