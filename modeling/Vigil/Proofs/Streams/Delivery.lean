import Mathlib.Data.List.Induction
import Vigil.Proofs.Streams.Courses

/-! What a subscription is told of its stream: the events from the first on, in their order and
without a gap, and at the end why there are no more. -/
namespace Vigil

def SubscriptionDeed.event? : SubscriptionDeed → Option StreamEvent
  | .event e => some e
  | .ask | .ended _ => none

/-- The end that an item is, if it is one. -/
def StreamItem.end? : StreamItem → Option StreamEnd
  | .event _ => none
  | .error status => some (.ofStatus status)
  | .close => some .completed

/-- How a subscription ends that was told these events of these items. -/
def StreamEnd.Fits (items : List StreamItem) (events : List StreamEvent) (hushed : Prop)
    (refused : Status → Prop) (how : StreamEnd) : Prop :=
  match how with
  | .completed => events.map .event ++ [.close] <+: items
  | .disconnected status | .failed status =>
    how = .ofStatus status ∧
      (events.map .event ++ [.error status] <+: items ∨ events = [] ∧ refused status)
  | .cancelled => hushed

namespace StreamEnd.Fits

variable {items : List StreamItem} {events : List StreamEvent} {hushed : Prop}
  {refused : Status → Prop}

theorem ofStatus {status : Status}
    (h : events.map .event ++ [.error status] <+: items ∨ events = [] ∧ refused status) :
    (StreamEnd.ofStatus status).Fits items events hushed refused := by
  unfold StreamEnd.ofStatus
  split
  · rename_i hc
    exact ⟨by simp [StreamEnd.ofStatus, hc], h⟩
  · rename_i hc
    exact ⟨by simp [StreamEnd.ofStatus, hc], h⟩

theorem mono {how : StreamEnd} (h : how.Fits items events hushed refused)
    {items' : List StreamItem} {hushed' : Prop} {refused' : Status → Prop}
    (hitems : items <+: items') (hhushed : hushed → hushed')
    (hrefused : ∀ s, refused s → refused' s) :
    how.Fits items' events hushed' refused' := by
  cases how with
  | cancelled => exact hhushed h
  | completed => exact List.IsPrefix.trans h hitems
  | disconnected status => exact ⟨h.1, h.2.imp (·.trans hitems) (And.imp_right (hrefused status))⟩
  | failed status => exact ⟨h.1, h.2.imp (·.trans hitems) (And.imp_right (hrefused status))⟩

end StreamEnd.Fits

namespace Subscription.Course

def events (c : Course) : List StreamEvent := c.deeds.filterMap SubscriptionDeed.event?

def takes (c : Course) : Act → List StreamItem
  | .receive item => if c.sub.pump = .reading then [item] else []
  | .drop | .cancel | .turn _ => []

/-- An act asks for the end of a subscription that has not ended. -/
def HushedBy (c : Course) (a : Act) : Prop := c.sub.live = true ∧ (a = .cancel ∨ a = .drop)

def RefusedBy (c : Course) (a : Act) (status : Status) : Prop :=
  a = .turn (.refused status) ∧ c.sub.pump = .opening ∧ c.sub.cancelled = false

/-- What was told fits what the stream brought, and what was not told yet is kept. -/
structure Kept (c : Course) (items : List StreamItem) (hushed : Prop) (refused : Status → Prop) :
    Prop where
  live_iff : c.sub.live = true ↔ ∀ how, .ended how ∉ c.deeds
  halted : c.sub.live = false → c.sub.cancelled = true ∨ c.sub.pump = .done
  hush : c.sub.cancelled = true → c.sub.live = true → hushed
  called : c.sub.pump = .called →
    items = [] ∧ c.sub.inbox = [] ∧ (c.sub.live = true → c.deeds = [])
  opening : c.sub.pump = .opening →
    items = [] ∧ c.sub.inbox = [] ∧ (c.sub.live = true → c.deeds = [.ask])
  reading : c.sub.pump = .reading → ∃ lost, items = c.events.map .event ++ c.sub.inbox ++ lost ∧
    (lost ≠ [] → .close ∈ c.sub.inbox)
  told : c.events.map .event <+: items
  ends : ∀ how, .ended how ∈ c.deeds → how.Fits items c.events hushed refused

theorem events_note (c : Course) (d : SubscriptionDeed) :
    (c.note d).events = c.events ++ d.event?.toList := by
  cases h : d.event? <;> simp [events, note, h]

theorem events_update (c : Course) (f : Subscription → Subscription) :
    (c.update f).events = c.events := rfl

theorem ended_mem_note {c : Course} {d : SubscriptionDeed} (hd : ∀ how, d ≠ .ended how)
    {how : StreamEnd} : .ended how ∈ (c.note d).deeds ↔ .ended how ∈ c.deeds := by
  simp [note, (hd how).symm]

namespace Kept

variable {c : Course} {items : List StreamItem} {hushed : Prop} {refused : Status → Prop}

theorem mono (h : c.Kept items hushed refused) {hushed' : Prop} {refused' : Status → Prop}
    (hhushed : hushed → hushed') (hrefused : ∀ s, refused s → refused' s) :
    c.Kept items hushed' refused' :=
  { h with
    hush := fun hc hl => hhushed (h.hush hc hl)
    ends := fun how hd => (h.ends how hd).mono List.prefix_rfl hhushed hrefused }

theorem tellEnd (h : c.Kept items hushed refused) (hl : c.sub.live = true)
    {f : Subscription → Subscription} (hlive : (f c.sub).live = false)
    (hover : (f c.sub).cancelled = true ∨ (f c.sub).pump = .done)
    (hpump : (f c.sub).pump = .done ∨
      (f c.sub).pump = c.sub.pump ∧ (f c.sub).inbox = c.sub.inbox)
    {how : StreamEnd} (hwhy : how.Fits items c.events hushed refused) :
    ((c.update f).note (.ended how)).Kept items hushed refused := by
  have hevents : ((c.update f).note (.ended how)).events = c.events := by
    simp [events_note, events_update, SubscriptionDeed.event?]
  have hdead (hl' : (f c.sub).live = true) : False :=
    Bool.false_ne_true (hlive.symm.trans hl')
  have hsame (p : Pump) (hp : (f c.sub).pump = p) (hne : p ≠ .done) :
      c.sub.pump = p ∧ (f c.sub).inbox = c.sub.inbox := by
    obtain ⟨hsame, hinbox⟩ := hpump.resolve_left fun hdone => hne (hp.symm.trans hdone)
    exact ⟨hsame.symm.trans hp, hinbox⟩
  refine ⟨⟨fun hl' => (hdead hl').elim, fun hnone => ?_⟩, fun _ => hover,
    fun _ hl' => (hdead hl').elim, fun hp => ?_, fun hp => ?_, fun hp => ?_, ?_, ?_⟩
  · exact absurd (by simp [Course.note]) (hnone how)
  · obtain ⟨hcalled, hinbox⟩ := hsame .called hp (by simp)
    obtain ⟨hitems, hnone, -⟩ := h.called hcalled
    exact ⟨hitems, hinbox.trans hnone, fun hl' => (hdead hl').elim⟩
  · obtain ⟨hopening, hinbox⟩ := hsame .opening hp (by simp)
    obtain ⟨hitems, hnone, -⟩ := h.opening hopening
    exact ⟨hitems, hinbox.trans hnone, fun hl' => (hdead hl').elim⟩
  · obtain ⟨hreading, hinbox⟩ := hsame .reading hp (by simp)
    obtain ⟨lost, hitems, hlost⟩ := h.reading hreading
    refine ⟨lost, ?_, fun hne => hinbox ▸ hlost hne⟩
    rw [hevents]
    exact hinbox ▸ hitems
  · rw [hevents]
    exact h.told
  · intro how' hmem
    rw [hevents]
    rcases List.mem_append.mp hmem with hold | hnew
    · exact absurd hold (h.live_iff.mp hl how')
    · obtain rfl : how' = how := by simpa using hnew
      exact hwhy

theorem teardown (h : c.Kept items hushed refused) (hl : c.sub.live = true) (hh : hushed) :
    c.teardown.Kept items hushed refused := by
  rw [teardown_of_live hl]
  exact h.tellEnd hl rfl (.inl rfl) (.inr ⟨rfl, rfl⟩) hh

theorem finish (h : c.Kept items hushed refused) {how : StreamEnd}
    (hwhy : c.sub.live = true → how.Fits items c.events hushed refused) :
    (c.finish how).Kept items hushed refused := by
  cases hl : c.sub.live with
  | true =>
    rw [finish_of_live hl]
    exact h.tellEnd hl rfl (.inr rfl) (.inl rfl) (hwhy hl)
  | false =>
    rw [finish_of_over hl]
    exact { h with
      halted := fun _ => .inr rfl
      called := nofun
      opening := nofun
      reading := nofun }

theorem drop (h : c.Kept items hushed refused) (hh : c.sub.live = true → hushed) :
    c.drop.Kept items hushed refused := by
  unfold Course.drop
  split
  · rename_i hl
    exact h.teardown hl (hh hl)
  · exact h

theorem cancel (h : c.Kept items hushed refused) (hh : c.sub.live = true → hushed) :
    c.cancel.Kept items hushed refused :=
  { h with
    halted := fun _ => .inl rfl
    hush := fun _ hl => hh hl }

theorem refilled (h : c.Kept items hushed refused) (hp : c.sub.pump = .reading)
    {items' inbox : List StreamItem} (hgrown : items <+: items')
    (hread : ∃ lost, items' = c.events.map .event ++ inbox ++ lost ∧
      (lost ≠ [] → .close ∈ inbox)) :
    (c.update ({ · with inbox })).Kept items' hushed refused :=
  { h with
    called := fun hp' => nomatch hp.symm.trans hp'
    opening := fun hp' => nomatch hp.symm.trans hp'
    reading := fun _ => hread
    told := h.told.trans hgrown
    ends := fun how hd => (h.ends how hd).mono hgrown id fun _ => id }

theorem receive (h : c.Kept items hushed refused) (item : StreamItem) :
    (c.receive item).Kept (items ++ c.takes (.receive item)) hushed refused := by
  by_cases hp : c.sub.pump = .reading
  · obtain ⟨lost, hitems, hlost⟩ := h.reading hp
    have htakes : c.takes (.receive item) = [item] := if_pos hp
    have hgrown : items <+: items ++ [item] := List.prefix_append _ _
    rw [htakes]
    by_cases hclose : .close ∈ c.sub.inbox
    · -- Nobody waits for what comes behind a close.
      have hsame : c.receive item = c := by simp [Course.receive, update, hp, hclose]
      have hread : items ++ [item] = c.events.map .event ++ c.sub.inbox ++ (lost ++ [item]) := by
        simp [hitems]
      rw [hsame]
      exact h.refilled hp hgrown ⟨_, hread, fun _ => hclose⟩
    · have hnone : lost = [] := by
        by_contra hne
        exact hclose (hlost hne)
      have hmore : c.receive item = c.update ({ · with inbox := c.sub.inbox ++ [item] }) := by
        simp [Course.receive, update, hp, hclose]
      rw [hmore]
      exact h.refilled hp hgrown ⟨[], by simp [hitems, hnone], absurd rfl⟩
  · have hsame : c.receive item = c := by simp [Course.receive, update, hp]
    have htakes : c.takes (.receive item) = [] := if_neg hp
    rw [hsame, htakes, List.append_nil]
    exact h

theorem events_eq_nil (h : c.Kept items hushed refused) (hitems : items = []) :
    c.events = [] := by
  have htold := h.told
  rw [hitems, List.prefix_nil] at htold
  exact List.map_eq_nil_iff.mp htold

theorem cancelled_of_over (h : c.Kept items hushed refused) (hl : c.sub.live = false)
    (hp : c.sub.pump ≠ .done) : c.sub.cancelled = true :=
  (h.halted hl).resolve_right hp

theorem live_of_going (h : c.Kept items hushed refused) (hgoes : c.sub.cancelled = false)
    (hp : c.sub.pump ≠ .done) : c.sub.live = true := by
  by_contra hover
  have hcancelled := h.cancelled_of_over (by simpa using hover) hp
  exact nomatch hgoes.symm.trans hcancelled

theorem asked (h : c.Kept items hushed refused) (hp : c.sub.pump = .called) :
    ((c.update ({ · with pump := .opening })).note .ask).Kept items hushed refused := by
  obtain ⟨hitems, hinbox, hdeeds⟩ := h.called hp
  have hended {how : StreamEnd} :
      .ended how ∈ ((c.update ({ · with pump := .opening })).note .ask).deeds ↔
        .ended how ∈ c.deeds := ended_mem_note (d := .ask) nofun
  have hevents : ((c.update ({ · with pump := .opening })).note .ask).events = c.events := by
    simp [events_note, events_update, SubscriptionDeed.event?]
  refine ⟨?_, ?_, h.hush, nofun, fun _ => ⟨hitems, hinbox, ?_⟩, nofun, ?_, ?_⟩
  · simp only [hended]
    exact h.live_iff
  · exact fun hl => .inl (h.cancelled_of_over hl (by simp [hp]))
  · intro hl
    exact congrArg (· ++ [.ask]) (hdeeds hl)
  · rw [hevents]
    exact h.told
  · intro how hmem
    rw [hevents]
    exact h.ends how (hended.mp hmem)

theorem granted (h : c.Kept items hushed refused) (hp : c.sub.pump = .opening) :
    (c.update ({ · with pump := .reading })).Kept items hushed refused := by
  obtain ⟨hitems, hinbox, -⟩ := h.opening hp
  have hread : items = c.events.map .event ++ c.sub.inbox ++ [] := by
    simp [hitems, hinbox, h.events_eq_nil hitems]
  exact { h with
    halted := fun hl => .inl (h.cancelled_of_over hl (by simp [hp]))
    called := nofun
    opening := nofun
    reading := fun _ => ⟨[], hread, absurd rfl⟩ }

theorem brought (h : c.Kept items hushed refused) (hp : c.sub.pump = .reading) {e : StreamEvent}
    {rest : List StreamItem} (hi : c.sub.inbox = .event e :: rest) (hl : c.sub.live = true) :
    ((c.update ({ · with inbox := rest })).note (.event e)).Kept items hushed refused := by
  obtain ⟨lost, hitems, hlost⟩ := h.reading hp
  have hended {how : StreamEnd} :
      .ended how ∈ ((c.update ({ · with inbox := rest })).note (.event e)).deeds ↔
        .ended how ∈ c.deeds := ended_mem_note (d := .event e) nofun
  have hevents :
      ((c.update ({ · with inbox := rest })).note (.event e)).events = c.events ++ [e] := by
    simp [events_note, events_update, SubscriptionDeed.event?]
  have hread : items = (c.events ++ [e]).map .event ++ rest ++ lost := by
    simp [hitems, hi]
  have hpump {p : Pump} (hne : p ≠ .reading) : c.sub.pump ≠ p := fun hp' => hne (hp'.symm.trans hp)
  refine ⟨?_, h.halted, h.hush, fun hp' => absurd hp' (hpump nofun),
    fun hp' => absurd hp' (hpump nofun), fun _ => ⟨lost, ?_, ?_⟩, ?_, ?_⟩
  · simp only [hended]
    exact h.live_iff
  · rw [hevents]
    exact hread
  · intro hne
    have hclose := hlost hne
    rw [hi] at hclose
    exact (List.mem_cons.mp hclose).resolve_left nofun
  · rw [hevents, hread, List.append_assoc]
    exact List.prefix_append _ _
  · intro how hmem
    exact absurd (hended.mp hmem) (h.live_iff.mp hl how)

theorem turn (h : c.Kept items hushed refused) (answer : Subscriptions.Answer) :
    (c.turn answer).Kept items hushed
      (fun status => refused status ∨ c.RefusedBy (.turn answer) status) := by
  have h' : c.Kept items hushed fun status => refused status ∨ c.RefusedBy (.turn answer) status :=
    h.mono id fun _ => .inl
  have ht := c.turned answer
  generalize c.turn answer = c' at ht ⊢
  cases ht with
  | idle => exact h'
  | stopped hp hc => exact h'.finish (h.hush hc)
  | asked hp hc => exact h'.asked hp
  | granted hp hc => exact h'.granted hp
  | refused status hp hc ha =>
    have hnone := h.events_eq_nil (h.opening hp).1
    exact h'.finish fun _ => .ofStatus (.inr ⟨hnone, .inr ⟨by rw [ha], hp, hc⟩⟩)
  | brought e rest hp hc hi hl => exact h'.brought hp hi hl
  | muted e rest hp hc hi hl =>
    -- Who is over without having been cancelled has finished and reads no more.
    exact nomatch hc.symm.trans (h.cancelled_of_over hl (by simp [hp]))
  | failed status rest hp hc hi =>
    obtain ⟨lost, hitems, -⟩ := h.reading hp
    have hread : items = c.events.map .event ++ [.error status] ++ (rest ++ lost) := by
      simp [hitems, hi]
    exact h'.finish fun _ => .ofStatus (.inl ⟨_, hread.symm⟩)
  | completed rest hp hc hi =>
    obtain ⟨lost, hitems, -⟩ := h.reading hp
    have hread : items = c.events.map .event ++ [.close] ++ (rest ++ lost) := by
      simp [hitems, hi]
    exact h'.finish fun _ => ⟨_, hread.symm⟩

theorem step (h : c.Kept items hushed refused) (a : Act) :
    (c.step a).Kept (items ++ c.takes a) (hushed ∨ c.HushedBy a)
      (fun status => refused status ∨ c.RefusedBy a status) := by
  have h' : c.Kept items (hushed ∨ c.HushedBy a)
      fun status => refused status ∨ c.RefusedBy a status := h.mono .inl fun _ => .inl
  cases a with
  | drop =>
    rw [takes, List.append_nil]
    exact h'.drop fun hl => .inr ⟨hl, .inr rfl⟩
  | cancel =>
    rw [takes, List.append_nil]
    exact h'.cancel fun hl => .inr ⟨hl, .inl rfl⟩
  | receive item => exact h'.receive item
  | turn answer =>
    rw [takes, List.append_nil]
    exact (h.turn answer).mono .inl fun _ => id

theorem begun (key : StreamKey) : Kept ⟨{ key }, []⟩ [] hushed refused where
  live_iff := by simp
  halted := nofun
  hush := nofun
  called := fun _ => ⟨rfl, rfl, fun _ => rfl⟩
  opening := nofun
  reading := nofun
  told := List.nil_prefix
  ends := nofun

theorem refusal (h : c.Kept items hushed refused) {status : Status}
    (ha : c.RefusedBy (.turn (.refused status)) status) :
    (c.step (.turn (.refused status))).Silent ∧
      (c.step (.turn (.refused status))).deeds = [.ask, .ended (.ofStatus status)] := by
  obtain ⟨-, hp, hc⟩ := ha
  have hl : c.sub.live = true := h.live_of_going hc (by simp [hp])
  have hturn : c.turn (.refused status) = c.finish (.ofStatus status) := by
    simp [Course.turn, hp, hc]
  have hdeeds := (h.opening hp).2.2 hl
  rw [Course.step, hturn, finish_of_live hl]
  refine ⟨⟨rfl, .inr rfl⟩, ?_⟩
  change c.deeds ++ [.ended (.ofStatus status)] = _
  rw [hdeeds]
  rfl

end Kept

/-! ### Reading on -/

variable {c : Course}

theorem run_reading (hp : c.sub.pump = .reading) (hc : c.sub.cancelled = false)
    (hl : c.sub.live = true) {es : List StreamEvent} {rest : List StreamItem}
    (hi : c.sub.inbox = es.map .event ++ rest) (answer : Subscriptions.Answer) :
    c.run (List.replicate es.length (.turn answer)) =
      ⟨{ c.sub with inbox := rest }, c.deeds ++ es.map .event⟩ := by
  induction es generalizing c with
  | nil =>
    have hrest : c.sub.inbox = rest := hi
    simp [run, ← hrest]
  | cons e es ih =>
    have hturn : c.turn answer =
        (c.update ({ · with inbox := es.map .event ++ rest })).note (.event e) := by
      simp [turn, hp, hc, hl, hi]
    have hnext : c.run (List.replicate (es.length + 1) (.turn answer)) =
        (c.turn answer).run (List.replicate es.length (.turn answer)) := rfl
    have hrest := ih (c := (c.update ({ · with inbox := es.map .event ++ rest })).note (.event e))
      hp hc hl rfl
    rw [List.length_cons, hnext, hturn, hrest]
    simp [note, update]

theorem deeds_turn_end (hp : c.sub.pump = .reading) (hc : c.sub.cancelled = false)
    (hl : c.sub.live = true) {item : StreamItem} {rest : List StreamItem}
    (hi : c.sub.inbox = item :: rest) {how : StreamEnd} (hend : item.end? = some how)
    (answer : Subscriptions.Answer) : (c.turn answer).deeds = c.deeds ++ [.ended how] := by
  have hfinish : c.turn answer = c.finish how := by
    cases item with
    | event e => cases hend
    | error status =>
      obtain rfl := Option.some.inj hend
      simp [turn, hp, hc, hi]
    | close =>
      obtain rfl := Option.some.inj hend
      simp [turn, hp, hc, hi]
  rw [hfinish, finish_of_live hl]
  rfl

end Subscription.Course

namespace Subscriptions

open Subscription (Act Course)

def brings (m : Subscriptions) (id : Nat) : Step → List StreamItem
  | .receive n item =>
    if n = id ∧ m.all[id]?.any (·.pump = .reading) then [item] else []
  | _ => []

/-- All that a subscription's stream brings in a run; only one that is open brings anything. -/
def fed (m : Subscriptions) (id : Nat) : List Step → List StreamItem
  | [] => []
  | s :: rest => m.brings id s ++ (m.step s).fed id rest

def eventsOf (m : Subscriptions) (id : Nat) : List StreamEvent :=
  (m.deedsOf id).filterMap SubscriptionDeed.event?

/-- A step cancels or tears down a subscription that has not ended: it is registered still. -/
def Hushes (m : Subscriptions) (id : Nat) (s : Step) : Prop :=
  ∃ key, (key, id) ∈ m.handles ∧ (s = .cancel id ∨ s.drops?.any (· key) = true)

def Refuses (m : Subscriptions) (id : Nat) (status : Status) (s : Step) : Prop :=
  s = .turn id (.refused status) ∧
    ∃ sub, m.all[id]? = some sub ∧ sub.pump = .opening ∧ sub.cancelled = false

/-- One of the steps is such when it is taken. -/
def Happened (steps : List Step) (P : Subscriptions → Step → Prop) : Prop :=
  ∃ before s after, steps = before ++ s :: after ∧ P (run {} before) s

theorem Happened.concat {steps : List Step} {P : Subscriptions → Step → Prop}
    (h : Happened steps P) (s : Step) : Happened (steps ++ [s]) P := by
  obtain ⟨before, s', after, rfl, hP⟩ := h
  exact ⟨before, s', after ++ [s], by simp, hP⟩

theorem Happened.last {steps : List Step} {P : Subscriptions → Step → Prop} {s : Step}
    (h : P (run {} steps) s) : Happened (steps ++ [s]) P := ⟨steps, s, [], rfl, h⟩

theorem run_concat (m : Subscriptions) (steps : List Step) (s : Step) :
    m.run (steps ++ [s]) = (m.run steps).step s := List.foldl_concat ..

theorem fed_concat (m : Subscriptions) (id : Nat) (steps : List Step) (s : Step) :
    m.fed id (steps ++ [s]) = m.fed id steps ++ (m.run steps).brings id s := by
  induction steps generalizing m with
  | nil => simp [fed, run]
  | cons s' rest ih =>
    have hrest := ih (m.step s')
    rw [List.cons_append, fed, fed, hrest, List.append_assoc]
    rfl

/-! ### What a step is to one subscription -/

variable {m : Subscriptions} {id : Nat} {c : Course}

theorem brings_eq (hc : m.course? id = some c) (s : Step) :
    m.brings id s = ((s.actOn id c.sub.key).map c.takes).getD [] := by
  obtain ⟨sub, hs, rfl⟩ := Option.map_eq_some_iff.mp hc
  cases s with
  | receive n item => by_cases hn : n = id <;> simp [brings, Step.actOn, hn, hs, Course.takes]
  | cancel n => by_cases hn : n = id <;> simp [brings, Step.actOn, hn, Course.takes]
  | turn n answer => by_cases hn : n = id <;> simp [brings, Step.actOn, hn, Course.takes]
  | subscribe | unsubscribe | unsubscribeAll | unsubscribeEverything =>
    simp only [brings, Step.actOn]
    split <;> rfl

theorem brings_of_none (hc : m.course? id = none) (s : Step) : m.brings id s = [] := by
  have hs : m.all[id]? = none := by simpa [course?] using hc
  cases s <;> simp [brings, hs]

theorem hushes_of_hushedBy (h : Registered m) (hc : m.course? id = some c) {s : Step} {a : Act}
    (ha : s.actOn id c.sub.key = some a) (hush : c.HushedBy a) : m.Hushes id s := by
  obtain ⟨sub, hs, rfl⟩ := Option.map_eq_some_iff.mp hc
  obtain ⟨hl, hact⟩ := hush
  refine ⟨sub.key, (h.handles_iff sub.key id).mpr ?_, ?_⟩
  · exact standing_eq_some_iff.mpr ⟨sub, hs, rfl, hl⟩
  · cases s with
    | cancel n =>
      by_cases hn : n = id
      · exact .inl (hn ▸ rfl)
      · simp [Step.actOn, hn] at ha
    | receive n item => rcases hact with rfl | rfl <;> simp [Step.actOn] at ha
    | turn n answer => rcases hact with rfl | rfl <;> simp [Step.actOn] at ha
    | subscribe | unsubscribe | unsubscribeAll | unsubscribeEverything =>
      right
      simp only [Step.actOn] at ha
      split at ha
      · assumption
      · cases ha

theorem refuses_of_refusedBy (hc : m.course? id = some c) {s : Step} {a : Act} {status : Status}
    (ha : s.actOn id c.sub.key = some a) (href : c.RefusedBy a status) :
    m.Refuses id status s := by
  obtain ⟨sub, hs, rfl⟩ := Option.map_eq_some_iff.mp hc
  obtain ⟨rfl, hp, hcancelled⟩ := href
  refine ⟨?_, sub, hs, hp, hcancelled⟩
  cases s with
  | turn n answer =>
    by_cases hn : n = id
    · simpa [Step.actOn, hn] using ha
    · simp [Step.actOn, hn] at ha
  | cancel | receive => simp [Step.actOn] at ha
  | subscribe | unsubscribe | unsubscribeAll | unsubscribeEverything => simp [Step.actOn] at ha

theorem course?_step_none (h : Known m) (hc : m.course? id = none) (s : Step) :
    (m.step s).course? id = none ∨ ∃ key, (m.step s).course? id = some ⟨{ key }, []⟩ := by
  rw [course?_step_of_none h hc]
  cases s with
  | subscribe key =>
    by_cases heq : id = m.all.length
    · exact .inr ⟨key, if_pos heq⟩
    · exact .inl (if_neg heq)
  | unsubscribe | unsubscribeAll | unsubscribeEverything | cancel | receive | turn => exact .inl rfl

/-! ### Runs -/

theorem kept_run (steps : List Step) (id : Nat) :
    ((run {} steps).course? id = none → fed {} id steps = []) ∧
    ∀ c, (run {} steps).course? id = some c →
      c.Kept (fed {} id steps) (Happened steps (Hushes · id ·))
        fun status => Happened steps (Refuses · id status ·) := by
  -- From the end of the run, since a step counts by the state in which it is taken.
  induction steps using List.reverseRecOn with
  | nil => exact ⟨fun _ => rfl, nofun⟩
  | append_singleton steps s ih =>
    obtain ⟨ihnone, ihkept⟩ := ih
    have hreg := registered_run steps
    rw [run_concat, fed_concat]
    cases hc : (run {} steps).course? id with
    | none =>
      have hitems : fed {} id steps ++ (run {} steps).brings id s = [] := by
        rw [ihnone hc, brings_of_none hc, List.append_nil]
      refine ⟨fun _ => hitems, fun c hc' => ?_⟩
      rcases course?_step_none (Known.run steps) hc s with hnone | ⟨key, hnew⟩
      · exact nomatch hnone.symm.trans hc'
      · obtain rfl : ⟨{ key }, []⟩ = c := Option.some.inj (hnew.symm.trans hc')
        rw [hitems]
        exact .begun key
    | some c =>
      have hstep := course?_step hreg hc s
      refine ⟨fun hnone => (nomatch hstep.symm.trans hnone), fun c' hc' => ?_⟩
      obtain rfl : c.run (s.actOn id c.sub.key).toList = c' :=
        Option.some.inj (hstep.symm.trans hc')
      have hkept := ihkept c hc
      cases ha : s.actOn id c.sub.key with
      | none =>
        rw [brings_eq hc, ha, Option.map_none, Option.getD_none, List.append_nil]
        exact hkept.mono (·.concat s) fun _ => (·.concat s)
      | some a =>
        rw [brings_eq hc, ha, Option.map_some, Option.getD_some]
        refine (hkept.step a).mono ?_ fun status => ?_
        · rintro (hold | hnew)
          · exact hold.concat s
          · exact .last (hushes_of_hushedBy hreg hc ha hnew)
        · rintro (hold | hnew)
          · exact hold.concat s
          · exact .last (refuses_of_refusedBy hc ha hnew)

theorem deedsOf_of_refused {steps : List Step} {status : Status}
    (h : Happened steps (Refuses · id status ·)) :
    (run {} steps).deedsOf id = [.ask, .ended (.ofStatus status)] := by
  obtain ⟨before, s, after, rfl, hs, sub, hsub, hp, hcancelled⟩ := h
  have hreg := registered_run before
  have hc : (run {} before).course? id = some ⟨sub, (run {} before).deedsOf id⟩ := by
    rw [course?, hsub, Option.map_some]
  obtain ⟨hsilent, hdeeds⟩ := ((kept_run before id).2 _ hc).refusal ⟨rfl, hp, hcancelled⟩
  have hnext := course?_step hreg hc s
  simp only [hs, Step.actOn, if_true, Option.toList_some, Course.run, List.foldl_cons,
    List.foldl_nil] at hnext
  have hrun : run {} (before ++ s :: after) = ((run {} before).step s).run after :=
    List.foldl_append
  rw [hrun, hs, deedsOf_run_of_silent (hreg.step _) hnext hsilent, deedsOf_of_course? hnext, hdeeds]

/-- As many turns as events wait tell them, and one more the end that comes behind them. -/
def ReadsOn (m : Subscriptions) (id : Nat) (inbox : List StreamItem) : Prop :=
  ∀ (es : List StreamEvent) (rest : List StreamItem) (answer : Answer),
    inbox = es.map .event ++ rest →
      let read := m.run (List.replicate es.length (.turn id answer))
      read.deedsOf id = m.deedsOf id ++ es.map .event ∧
        ∀ item how, rest.head? = some item → item.end? = some how →
          (read.step (.turn id answer)).deedsOf id = m.deedsOf id ++ es.map .event ++ [.ended how]

theorem readsOn (h : Registered m) (hc : m.course? id = some c) (hp : c.sub.pump = .reading)
    (hgoes : c.sub.cancelled = false) (hl : c.sub.live = true) : m.ReadsOn id c.sub.inbox := by
  intro es rest answer hi read
  have hact : (Step.turn id answer).actOn id c.sub.key = some (.turn answer) := by
    simp [Step.actOn]
  have hread : read.course? id = some ⟨{ c.sub with inbox := rest }, c.deeds ++ es.map .event⟩ := by
    have hrun := course?_run h hc (List.replicate es.length (.turn id answer))
    rw [List.filterMap_replicate_of_some hact, Course.run_reading hp hgoes hl hi] at hrun
    exact hrun
  rw [deedsOf_of_course? hread, deedsOf_of_course? hc]
  refine ⟨rfl, fun item how hitem hend => ?_⟩
  obtain ⟨behind, hbehind⟩ := List.head?_eq_some_iff.mp hitem
  refine (deedsOf_of_course? (course?_turn_self hread answer)).trans ?_
  exact Course.deeds_turn_end (c := ⟨{ c.sub with inbox := rest }, c.deeds ++ es.map .event⟩)
    hp hgoes hl hbehind hend answer

/-- In every order of calls, cancellations, arrivals and turns: a subscription is told the events
its stream brings from the first on, in their order and none twice, and what was not told yet waits
behind them and is read on unless it is cancelled. If it is completed it was told all up to the
close, and nothing of that was an error. If its connection is lost or the stream fails it was told
all before the first error, or the stream was refused, and the end is that of the status. If it is
cancelled, it was asked to end before it had ended. -/
theorem told_as_brought (steps : List Step) (id : Nat) :
    let m := run {} steps
    let items := fed {} id steps
    let events := m.eventsOf id
    events.map .event <+: items ∧
    (∀ how, .ended how ∈ m.deedsOf id →
      how.Fits items events (Happened steps (Hushes · id ·))
        fun status => Happened steps (Refuses · id status ·)) ∧
    (∀ status, Happened steps (Refuses · id status ·) →
      m.deedsOf id = [.ask, .ended (.ofStatus status)]) ∧
    (∀ sub, m.all[id]? = some sub → sub.pump = .reading →
      (∃ lost, items = events.map .event ++ sub.inbox ++ lost ∧
        (lost ≠ [] → .close ∈ sub.inbox)) ∧
      (sub.cancelled = false → m.ReadsOn id sub.inbox)) := by
  intro m items events
  obtain ⟨-, hkept⟩ := kept_run steps id
  cases hc : m.course? id with
  | none =>
    have hge : m.all.length ≤ id := by simpa [course?] using hc
    have hdeeds : m.deedsOf id = [] := (Known.run steps).deedsOf_eq_nil hge
    have hevents : events = [] := congrArg (List.filterMap SubscriptionDeed.event?) hdeeds
    refine ⟨?_, ?_, fun _ => deedsOf_of_refused, fun sub hsub => ?_⟩
    · rw [hevents]
      exact List.nil_prefix
    · rw [hdeeds]
      exact fun _ hmem => absurd hmem List.not_mem_nil
    · rw [List.getElem?_eq_none hge] at hsub
      cases hsub
  | some c =>
    obtain ⟨sub, hsub, rfl⟩ := Option.map_eq_some_iff.mp hc
    have h := hkept _ hc
    refine ⟨h.told, h.ends, fun _ => deedsOf_of_refused, fun sub' hsub' hp => ?_⟩
    obtain rfl : sub = sub' := Option.some.inj (hsub.symm.trans hsub')
    refine ⟨h.reading hp, fun hgoes => ?_⟩
    have hl : sub.live = true := h.live_of_going hgoes (by simp [hp])
    exact readsOn (registered_run steps) hc hp hgoes hl

/-- One stream fails behind an event, one is refused, and one is still read. -/
def threeStreams : List Step :=
  [.subscribe ⟨"p", .rawOutput⟩, .subscribe ⟨"q", .issues⟩, .subscribe ⟨"r", .rawOutput⟩,
    .turn 0 .later, .turn 1 .later, .turn 2 .later,
    .turn 0 .granted, .turn 1 (.refused ⟨.unavailable, "gone"⟩), .turn 2 .granted,
    .receive 0 (.event (.rawOutput [1])), .receive 0 (.error ⟨.internal, "boom"⟩),
    .receive 2 (.event (.rawOutput [2])), .turn 0 .later, .turn 0 .later]

theorem threeStreams_told :
    let m := run {} threeStreams
    (.ended (.failed ⟨.internal, "boom"⟩) ∈ m.deedsOf 0 ∧
      (StreamEnd.failed ⟨.internal, "boom"⟩).Fits (fed {} 0 threeStreams) (m.eventsOf 0)
        (Happened threeStreams (Hushes · 0 ·))
        fun status => Happened threeStreams (Refuses · 0 status ·)) ∧
    (Happened threeStreams (Refuses · 1 ⟨.unavailable, "gone"⟩ ·) ∧
      m.deedsOf 1 = [.ask, .ended (.ofStatus ⟨.unavailable, "gone"⟩)]) ∧
    ∃ sub, (m.all[2]? = some sub ∧ sub.pump = .reading ∧ sub.cancelled = false) ∧
      (∃ lost, fed {} 2 threeStreams = (m.eventsOf 2).map .event ++ sub.inbox ++ lost ∧
        (lost ≠ [] → .close ∈ sub.inbox)) ∧
      (m.step (.turn 2 .later)).deedsOf 2 = [.ask, .event (.rawOutput [2])] := by
  have hended : .ended (.failed ⟨.internal, "boom"⟩) ∈ (run {} threeStreams).deedsOf 0 := by decide
  have hrefused : Happened threeStreams (Refuses · 1 ⟨.unavailable, "gone"⟩ ·) :=
    ⟨threeStreams.take 7, .turn 1 (.refused ⟨.unavailable, "gone"⟩), threeStreams.drop 8, rfl, rfl,
      { key := ⟨"q", .issues⟩, pump := .opening }, by decide, rfl, rfl⟩
  have hsub : (run {} threeStreams).all[2]? = some
      { key := ⟨"r", .rawOutput⟩, pump := .reading, inbox := [.event (.rawOutput [2])] } := by
    decide
  refine ⟨⟨hended, (told_as_brought threeStreams 0).2.1 _ hended⟩, ⟨hrefused, ?_⟩,
    _, ⟨hsub, rfl, rfl⟩, ?_⟩
  · exact (told_as_brought threeStreams 1).2.2.1 _ hrefused
  · obtain ⟨hkept, hreads⟩ := (told_as_brought threeStreams 2).2.2.2 _ hsub rfl
    have hasked : (run {} threeStreams).deedsOf 2 = [.ask] := by decide
    obtain ⟨hnext, -⟩ := hreads rfl [.rawOutput [2]] [] .later rfl
    rw [hasked] at hnext
    exact ⟨hkept, hnext⟩

end Subscriptions

end Vigil
