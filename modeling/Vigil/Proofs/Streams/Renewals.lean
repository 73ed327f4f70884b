import Vigil.Proofs.Streams.Cancellations
import Vigil.Proofs.Streams.Isolation
import Vigil.Proofs.Streams.Removals

/-! Subscriptions that are made in sets and taken away all at once, while nobody cancels by a token
of his own. -/
namespace Vigil

namespace Subscription.Course

variable {c : Course}

/-- Who is cancelled has lost a registration: the end was told at once, and it was that. -/
structure Tended (c : Course) : Prop where
  unended : c.sub.live = true → ∀ how, .ended how ∉ c.deeds
  retired : c.sub.cancelled = true → c.sub.live = false
  torn : c.sub.cancelled = true → ∀ how, .ended how ∈ c.deeds → how = .cancelled

namespace Tended

theorem begun (key : StreamKey) : Tended ⟨{ key }, []⟩ :=
  ⟨fun _ _ => List.not_mem_nil, nofun, nofun⟩

theorem teardown (h : c.Tended) (hl : c.sub.live = true) : c.teardown.Tended := by
  rw [teardown_of_live hl]
  refine ⟨nofun, fun _ => rfl, fun _ how hmem => ?_⟩
  have hnone := h.unended hl how
  have hnew : (.ended how : SubscriptionDeed) ∈ [SubscriptionDeed.ended .cancelled] :=
    (List.mem_append.mp hmem).resolve_left hnone
  have heq := List.mem_singleton.mp hnew
  cases heq
  rfl

theorem finish (h : c.Tended) (how : StreamEnd) : (c.finish how).Tended := by
  cases hl : c.sub.live with
  | true =>
    have hgoes (hc : c.sub.cancelled = true) : False := nomatch hl.symm.trans (h.retired hc)
    rw [finish_of_live hl]
    exact ⟨nofun, fun hc => (hgoes hc).elim, fun hc => (hgoes hc).elim⟩
  | false =>
    rw [finish_of_over hl]
    exact ⟨h.unended, h.retired, h.torn⟩

theorem turn (h : c.Tended) (answer : Subscriptions.Answer) : (c.turn answer).Tended := by
  have ht := c.turned answer
  generalize c.turn answer = c' at ht ⊢
  cases ht with
  | idle => exact h
  | stopped | refused | muted | failed | completed => exact h.finish _
  | asked hp hc =>
    have hgoes {P : Prop} (hc' : c.sub.cancelled = true) : P := nomatch hc.symm.trans hc'
    refine ⟨fun hl how => ?_, hgoes, hgoes⟩
    have hnone := h.unended hl how
    simpa [note, update] using hnone
  | granted hp hc => exact ⟨h.unended, h.retired, h.torn⟩
  | brought e rest hp hc hi hl =>
    have hgoes {P : Prop} (hc' : c.sub.cancelled = true) : P := nomatch hc.symm.trans hc'
    refine ⟨fun _ how => ?_, hgoes, hgoes⟩
    have hnone := h.unended hl how
    simpa [note, update] using hnone

/-- Whatever is done to it but a cancellation by a token. -/
theorem step (h : c.Tended) {a : Act} (ha : a ≠ .cancel) : (c.step a).Tended := by
  cases a with
  | cancel => exact absurd rfl ha
  | drop =>
    change c.drop.Tended
    unfold drop
    split
    · rename_i hl
      exact h.teardown hl
    · exact h
  | receive item =>
    obtain ⟨inbox, hitem⟩ := c.exists_inbox item
    rw [hitem]
    exact ⟨h.unended, h.retired, h.torn⟩
  | turn answer => exact h.turn answer

end Tended

end Subscription.Course

namespace Subscriptions

open Subscription (Act Course)

variable {m : Subscriptions} {keys : List StreamKey}

/-- Nobody cancels by a token, and nobody subscribes to anything but these keys. -/
def Step.Within (keys : List StreamKey) : Step → Prop
  | .subscribe key => key ∈ keys
  | .cancel _ => False
  | .unsubscribe _ | .unsubscribeAll _ | .unsubscribeEverything | .receive _ _ | .turn _ _ => True

/-- Came about by such steps alone. -/
def Within (keys : List StreamKey) (m : Subscriptions) : Prop :=
  ∃ steps, m = run {} steps ∧ ∀ s ∈ steps, s.Within keys

theorem Step.Within.actOn_ne {s : Step} (hs : s.Within keys) {id : Nat} {key : StreamKey} {a : Act}
    (ha : s.actOn id key = some a) : a ≠ .cancel := by
  rintro rfl
  cases s with
  | cancel => exact hs
  | receive n item | turn n answer => by_cases hn : n = id <;> simp [Step.actOn, hn] at ha
  | subscribe | unsubscribe | unsubscribeAll | unsubscribeEverything =>
    simp [Step.actOn] at ha

namespace Within

theorem empty (keys : List StreamKey) : Within keys {} := ⟨[], rfl, nofun⟩

theorem step (h : m.Within keys) {s : Step} (hs : s.Within keys) : (m.step s).Within keys := by
  obtain ⟨steps, rfl, hsteps⟩ := h
  refine ⟨steps ++ [s], (run_concat {} steps s).symm, fun s' hs' => ?_⟩
  rcases List.mem_append.mp hs' with hold | hnew
  · exact hsteps s' hold
  · rw [List.mem_singleton.mp hnew]
    exact hs

theorem run (h : m.Within keys) {steps : List Step} (hsteps : ∀ s ∈ steps, s.Within keys) :
    (m.run steps).Within keys := by
  induction steps generalizing m with
  | nil => exact h
  | cons s rest ih =>
    have hone := h.step (hsteps s List.mem_cons_self)
    exact ih hone fun s' hs' => hsteps s' (List.mem_cons_of_mem s hs')

theorem registered (h : m.Within keys) : Registered m := by
  obtain ⟨steps, rfl, -⟩ := h
  exact registered_run steps

theorem known (h : m.Within keys) : Known m := by
  obtain ⟨steps, rfl, -⟩ := h
  exact Known.run steps

/-- Whose end was told has nothing left to do but to notice it. -/
theorem silent (h : m.Within keys) {id : Nat} {c : Course} (hc : m.course? id = some c)
    (hl : c.sub.live = false) : c.Silent := by
  obtain ⟨steps, rfl, -⟩ := h
  have hkept := (kept_run steps id).2 c hc
  exact ⟨hl, hkept.halted hl⟩

theorem tended (h : m.Within keys) {id : Nat} {c : Course} (hc : m.course? id = some c) :
    c.Tended := by
  obtain ⟨steps, rfl, hsteps⟩ := h
  induction steps using List.reverseRecOn generalizing id c with
  | nil => exact nomatch hc
  | append_singleton steps s ih =>
    have hearlier : ∀ s' ∈ steps, s'.Within keys :=
      fun s' hs' => hsteps s' (List.mem_append_left _ hs')
    have hs : s.Within keys := hsteps s (by simp)
    rw [run_concat] at hc
    exact courses_step .begun (registered_run steps) (Known.run steps)
      (fun id c hc' => ih hearlier hc')
      (fun id c a ha hold => hold.step (hs.actOn_ne ha)) hc

theorem mem_of_handles (h : m.Within keys) {key : StreamKey} {id : Nat}
    (hm : (key, id) ∈ m.handles) : key ∈ keys := by
  obtain ⟨steps, rfl, hsteps⟩ := h
  have hstands := ((registered_run steps).handles_iff key id).mp hm
  have hmem : key ∈ subscribed steps := List.mem_of_getElem? (standing_run_iff.mp hstands).1
  obtain ⟨s, hs, hkey⟩ := List.mem_filterMap.mp hmem
  cases s with
  | subscribe k =>
    obtain rfl : k = key := by simpa using hkey
    exact hsteps _ hs
  | unsubscribe | unsubscribeAll | unsubscribeEverything | cancel | receive | turn => cases hkey

end Within

/-! ### What every step does to the deeds and to the registrations -/

theorem tellEnd_suffix (m : Subscriptions) (id : Nat) (how : StreamEnd) :
    m.trail <:+ (m.tellEnd id how).trail := by
  rw [tellEnd_trail]
  split
  · exact List.suffix_cons _ _
  · exact List.suffix_rfl

theorem remove_suffix (m : Subscriptions) (p : StreamKey → Bool) :
    m.trail <:+ (m.remove p).1.trail := by
  have hall (m : Subscriptions) (gone : List (StreamKey × Nat)) :
      m.trail <:+ (m.teardownAll gone).trail := by
    induction gone generalizing m with
    | nil => exact List.suffix_rfl
    | cons h rest ih =>
      have hone : m.trail <:+ (m.teardown h.2).trail := (m.cancel h.2).tellEnd_suffix h.2 .cancelled
      exact hone.trans (ih (m.teardown h.2))
  let kept : Subscriptions := { m with handles := m.handles.filter fun h => !p h.1 }
  rw [remove_eq]
  exact hall kept _

theorem finish_suffix (m : Subscriptions) (id : Nat) (how : StreamEnd) :
    m.trail <:+ (m.finish id how).trail := by
  let kept : Subscriptions := { m with handles := m.handles.filter (·.2 != id) }
  exact (kept.update id ({ · with pump := .done, inbox := [] })).tellEnd_suffix id how

theorem turn_suffix (m : Subscriptions) (answer : Answer) (id : Nat) :
    m.trail <:+ (m.turn answer id).trail := by
  have ht := m.turned answer id
  generalize m.turn answer id = m' at ht ⊢
  cases ht with
  | idle | granted => exact List.suffix_rfl
  | stopped | refused | muted | failed | completed => exact m.finish_suffix id _
  | asked | brought => exact List.suffix_cons _ _

/-- Nothing that was told is taken back. -/
theorem step_suffix (m : Subscriptions) (s : Step) : m.trail <:+ (m.step s).trail := by
  cases s with
  | subscribe key => exact m.remove_suffix (· == key)
  | unsubscribe key => exact m.remove_suffix (· == key)
  | unsubscribeAll subject => exact m.remove_suffix (·.subject == subject)
  | unsubscribeEverything => exact m.remove_suffix fun _ => true
  | cancel id | receive id item => exact List.suffix_rfl
  | turn id answer => exact m.turn_suffix answer id

/-- Only a subscription is registered anew. -/
theorem step_handles_subset {s : Step} (hs : ∀ key, s ≠ .subscribe key) :
    (m.step s).handles ⊆ m.handles := by
  have hremove (p : StreamKey → Bool) : (m.remove p).1.handles ⊆ m.handles := by
    rw [remove_handles]
    exact List.filter_sublist.subset
  have hfinish (id : Nat) (how : StreamEnd) : (m.finish id how).handles ⊆ m.handles := by
    rw [finish_handles]
    exact List.filter_sublist.subset
  cases s with
  | subscribe key => exact absurd rfl (hs key)
  | unsubscribe key => exact hremove (· == key)
  | unsubscribeAll subject => exact hremove (·.subject == subject)
  | unsubscribeEverything => exact hremove fun _ => true
  | cancel id | receive id item => exact List.Subset.refl _
  | turn id answer =>
    change (m.turn answer id).handles ⊆ m.handles
    have ht := m.turned answer id
    generalize m.turn answer id = m' at ht ⊢
    cases ht with
    | idle | asked | granted | brought => exact List.Subset.refl _
    | stopped | refused | muted | failed | completed => exact hfinish id _

theorem unsubscribeEverything_handles (m : Subscriptions) :
    (m.step .unsubscribeEverything).handles = [] := by
  change (m.remove fun _ => true).1.handles = []
  simp

/-! ### With nobody registered -/

theorem finish_trail (m : Subscriptions) (id : Nat) (how : StreamEnd) :
    (m.finish id how).trail =
      if m.isLive id then (id, .ended how) :: m.trail else m.trail := by
  let kept : Subscriptions := { m with handles := m.handles.filter (·.2 != id) }
  let halted := kept.update id ({ · with pump := .done, inbox := [] })
  have hstanding : halted.standing = m.standing :=
    kept.update_standing id (fun _ => rfl) (fun _ => rfl)
  have hlive : halted.isLive id = m.isLive id := by
    rw [Bool.eq_iff_iff, isLive_iff, isLive_iff, hstanding]
  have htold := halted.tellEnd_trail id how
  rw [hlive] at htold
  exact htold

/-- When nobody is registered nothing is told any more, and no stream is asked for. -/
theorem Within.step_trail_of_none (h : m.Within keys) (hnone : m.handles = []) {s : Step}
    (hs : ∀ key, s ≠ .subscribe key) : (m.step s).trail = m.trail := by
  have hover (id : Nat) : m.isLive id = false := by
    rw [← Bool.not_eq_true, isLive_iff]
    rintro ⟨key, hk⟩
    have hmem := (h.registered.handles_iff key id).mpr hk
    rw [hnone] at hmem
    exact absurd hmem List.not_mem_nil
  have hremove (p : StreamKey → Bool) : (m.remove p).1.trail = m.trail := by
    simp [remove, hnone]
  have hfinish (id : Nat) (how : StreamEnd) : (m.finish id how).trail = m.trail := by
    rw [finish_trail, hover id]
    rfl
  have hdead {id : Nat} {sub : Subscription} (hsub : m.all[id]? = some sub) :
      sub.live = false := by
    have hlive := hover id
    rw [isLive, hsub] at hlive
    exact hlive
  cases s with
  | subscribe key => exact absurd rfl (hs key)
  | unsubscribe key => exact hremove (· == key)
  | unsubscribeAll subject => exact hremove (·.subject == subject)
  | unsubscribeEverything => exact hremove fun _ => true
  | cancel id | receive id item => rfl
  | turn id answer =>
    change (m.turn answer id).trail = m.trail
    have ht := m.turned answer id
    generalize m.turn answer id = m' at ht ⊢
    cases ht with
    | idle | granted => rfl
    | stopped | refused | muted | failed | completed => exact hfinish id _
    | asked sub hsub hp hc =>
      have hcourse : m.course? id = some ⟨sub, m.deedsOf id⟩ := by
        rw [course?, hsub, Option.map_some]
      have hsilent := h.silent hcourse (hdead hsub)
      rcases hsilent.halted with hcancelled | hdone
      · exact absurd (hc.symm.trans hcancelled) Bool.false_ne_true
      · exact absurd (hp.symm.trans hdone) (by simp)
    | brought sub e rest hsub hp hc hi hl =>
      exact absurd ((hdead hsub).symm.trans hl) Bool.false_ne_true

/-! ### Whole sets -/

/-- Subscribes to these keys, one after the other. -/
def renew (m : Subscriptions) (keys : List StreamKey) : Subscriptions :=
  m.run (keys.map .subscribe)

theorem isActive_iff {key : StreamKey} :
    m.isActive key = true ↔ ∃ id, (key, id) ∈ m.handles := by
  rw [isActive, List.lookup_isSome_iff]
  constructor
  · rintro ⟨⟨k, id⟩, hm, hk⟩
    obtain rfl : key = k := by simpa using hk
    exact ⟨id, hm⟩
  · rintro ⟨id, hm⟩
    exact ⟨(key, id), hm, by simp⟩

theorem isActive_subscribe (m : Subscriptions) (new key : StreamKey) :
    (m.subscribe new).1.isActive key = true ↔ key = new ∨ m.isActive key = true := by
  have hhandles : (m.subscribe new).1.handles =
      (m.handles.filter fun h => !(h.1 == new)) ++ [(new, m.all.length)] :=
    congrArg (· ++ [(new, m.all.length)]) (remove_handles m (· == new))
  rw [isActive_iff, isActive_iff, hhandles]
  by_cases hkey : key = new
  · simp [hkey]
  · simp [hkey]

theorem isActive_renew (m : Subscriptions) (key : StreamKey) :
    (m.renew keys).isActive key = true ↔ key ∈ keys ∨ m.isActive key = true := by
  induction keys generalizing m with
  | nil => simp [renew, run]
  | cons new rest ih =>
    have hrest : (m.renew (new :: rest)).isActive key = true ↔
        key ∈ rest ∨ (m.subscribe new).1.isActive key = true := ih (m.subscribe new).1
    rw [hrest, isActive_subscribe, List.mem_cons]
    tauto

/-- Who is registered under one of the keys loses the registration, hears so, and hears nothing
else. -/
theorem renew_former (h : Registered m) {id : Nat} {c : Course} (hc : m.course? id = some c)
    (hl : c.sub.live = true) (hkey : c.sub.key ∈ keys) :
    ∃ c', (m.renew keys).course? id = some c' ∧ c'.sub.cancelled = true ∧ c'.sub.live = false ∧
      c'.deeds = c.deeds ++ [.ended .cancelled] := by
  induction keys generalizing m with
  | nil => exact absurd hkey List.not_mem_nil
  | cons new rest ih =>
    have hstep := course?_step h hc (.subscribe new)
    by_cases hnew : c.sub.key = new
    · have hact : (Step.subscribe new).actOn id c.sub.key = some .drop := by
        simp [Step.actOn, Step.drops?, hnew]
      have hdropped : c.run [.drop] = c.teardown := if_pos hl
      rw [hact, Option.toList_some, hdropped] at hstep
      have hlater := course?_run (h.step (.subscribe new)) hstep (rest.map .subscribe)
      have hsilent : c.teardown.Silent := by
        rw [Course.teardown_of_live hl]
        exact ⟨rfl, .inl rfl⟩
      have hcancelled : c.teardown.sub.cancelled = true := by
        rw [Course.teardown_of_live hl]
        rfl
      have hdeeds : c.teardown.deeds = c.deeds ++ [.ended .cancelled] := by
        rw [Course.teardown_of_live hl]
        rfl
      refine ⟨_, hlater, Course.run_cancelled hcancelled _, Course.run_over hsilent.ended _, ?_⟩
      exact (hsilent.run _).trans hdeeds
    · have hact : (Step.subscribe new).actOn id c.sub.key = none := by
        simp [Step.actOn, Step.drops?, hnew]
      rw [hact, Option.toList_none] at hstep
      exact ih (h.step (.subscribe new)) hstep ((List.mem_cons.mp hkey).resolve_left hnew)

theorem Within.renew (h : m.Within keys) : (m.renew keys).Within keys := by
  refine h.run fun s hs => ?_
  obtain ⟨key, hkey, rfl⟩ := List.mem_map.mp hs
  exact hkey

end Subscriptions

end Vigil
