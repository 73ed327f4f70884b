import Mathlib.Data.Finset.Card
import Mathlib.Data.List.DropRight
import Mathlib.Data.List.Induction
import Vigil.Shell.Queue

/-! The queue between two drains: what is sent, what is found, and what gives way when there is no
place left. -/
namespace Vigil.Shell

namespace Event

/-- The event draws this project's screen. -/
def draws (project : String) (e : Event) : Bool := e.screenOf? == some project

/-- Neither a log line nor a frame. -/
def isPlain (e : Event) : Bool := !e.isLog && e.screenOf?.isNone

variable {e : Event} {project : String}

theorem draws_iff : e.draws project = true ↔ e.screenOf? = some project := beq_iff_eq

theorem isLog_of_screenOf? (h : e.screenOf? = some project) : e.isLog = false := by
  cases e with
  | log line => cases h
  | overlay | stream | ended => rfl

theorem isPlain_of_screenOf? (h : e.screenOf? = some project) : e.isPlain = false := by
  simp [isPlain, h]

theorem isPlain_of_isLog (h : e.isLog = true) : e.isPlain = false := by
  simp [isPlain, h]

theorem draws_of_isLog (h : e.isLog = true) (project : String) : e.draws project = false := by
  cases e with
  | log line => rfl
  | overlay | stream | ended => cases h

end Event

namespace Queue

/-- What can be done to a queue. -/
inductive Op where
  | send (e : Event)
  | drain
  /-- The wake-up is taken, if one waits. -/
  | takeNotice

def step (q : Queue) : Op → Queue
  | .send e => (q.send e).1
  | .drain => q.drain.1
  | .takeNotice => q.takeNotice.1

def run (q : Queue) (ops : List Op) : Queue := ops.foldl step q

/-- What is sent, in order. -/
def sends (ops : List Op) : List Event :=
  ops.filterMap fun
    | .send e => some e
    | .drain | .takeNotice => none

variable {q : Queue} {e : Event}

theorem run_concat (q : Queue) (ops : List Op) (op : Op) :
    q.run (ops ++ [op]) = (q.run ops).step op := by
  simp [run]

/-! ### A send -/

/-- No frame that waits is of the event's project. -/
def Fresh (e : Event) (queued : List Event) : Prop :=
  ∀ project, e.screenOf? = some project → ∀ x ∈ queued, x.screenOf? ≠ some project

theorem coalesce?_eq_some {queued events : List Event} (h : coalesce? e queued = some events) :
    ∃ project front old rest, e.screenOf? = some project ∧ old.screenOf? = some project ∧
      (∀ x ∈ front, x.screenOf? ≠ some project) ∧ queued = front ++ old :: rest ∧
      events = front ++ e :: rest := by
  induction queued generalizing events with
  | nil => cases h
  | cons x rest ih =>
    unfold coalesce? at h
    split at h
    · rename_i hsame
      obtain ⟨project, he⟩ := Option.isSome_iff_exists.mp hsame.1
      obtain rfl := Option.some.inj h
      exact ⟨project, [], x, rest, he, hsame.2.trans he, nofun, rfl, rfl⟩
    · rename_i hother
      obtain ⟨events', hrest, rfl⟩ := Option.map_eq_some_iff.mp h
      obtain ⟨project, front, old, rest', he, hold, hfront, rfl, rfl⟩ := ih hrest
      refine ⟨project, x :: front, old, rest', he, hold, ?_, rfl, rfl⟩
      intro y hy
      rcases List.mem_cons.mp hy with rfl | hy
      · intro hy
        exact hother ⟨by rw [he]; rfl, hy.trans he.symm⟩
      · exact hfront y hy

theorem fresh_of_coalesce? {queued : List Event} (h : coalesce? e queued = none) :
    Fresh e queued := by
  induction queued with
  | nil => exact fun _ _ => nofun
  | cons x rest ih =>
    unfold coalesce? at h
    split at h
    · cases h
    · rename_i hother
      intro project he y hy
      rcases List.mem_cons.mp hy with rfl | hy
      · intro hsame
        exact hother ⟨by rw [he]; rfl, hsame.trans he.symm⟩
      · exact ih (Option.map_eq_none_iff.mp h) project he y hy

/-- All that a send can come to. -/
inductive Sent (q : Queue) (e : Event) : Queue × Bool → Prop where
  /-- The frame that waits for the same project is replaced where it stands. -/
  | coalesced {project : String} {front rest : List Event} {old : Event}
      (he : e.screenOf? = some project) (hold : old.screenOf? = some project)
      (hfront : ∀ x ∈ front, x.screenOf? ≠ some project) (hq : q.events = front ++ old :: rest) :
      Sent q e ({ q with events := front ++ e :: rest }, false)
  | added (hnew : Fresh e q.events) (hroom : q.events.length < q.limit) :
      Sent q e ({ q with
        events := q.events ++ [e]
        notified := q.notified || q.events.isEmpty }, true)
  /-- The oldest log line gives way. -/
  | displaced {front rest : List Event} {old : Event} (hnew : Fresh e q.events)
      (hfull : q.limit ≤ q.events.length) (hold : old.isLog = true)
      (hfront : ∀ x ∈ front, x.isLog = false) (hq : q.events = front ++ old :: rest) :
      Sent q e ({ q with
        events := front ++ rest ++ [e]
        notified := q.notified || q.events.isEmpty }, true)
  | refused (hfull : q.limit ≤ q.events.length) (hnone : ∀ x ∈ q.events, x.isLog = false)
      (he : e.isLog = true) : Sent q e (q, false)
  /-- With no log line left the oldest event gives way. -/
  | dropped (hnew : Fresh e q.events) (hfull : q.limit ≤ q.events.length)
      (hnone : ∀ x ∈ q.events, x.isLog = false) (he : e.isLog = false) :
      Sent q e ({ q with
        events := q.events.drop 1 ++ [e]
        notified := q.notified || q.events.isEmpty }, true)

theorem sent (q : Queue) (e : Event) : Sent q e (q.send e) := by
  unfold send
  cases hc : coalesce? e q.events with
  | some events =>
    obtain ⟨project, front, old, rest, he, hold, hfront, hq, rfl⟩ := coalesce?_eq_some hc
    exact .coalesced he hold hfront hq
  | none =>
    have hnew := fresh_of_coalesce? hc
    by_cases hfull : q.limit ≤ q.events.length
    · simp only [if_pos hfull]
      unfold makeRoom?
      by_cases hlogs : q.events.any Event.isLog = true
      · rw [if_pos hlogs]
        obtain ⟨x, hx, hlog⟩ := List.any_eq_true.mp hlogs
        obtain ⟨old, front, rest, hfront, hold, hq, herase⟩ := List.exists_of_eraseP hx hlog
        rw [herase]
        exact .displaced hnew hfull hold (fun y hy => Bool.eq_false_iff.mpr (hfront y hy)) hq
      · rw [if_neg hlogs]
        have hnone : ∀ x ∈ q.events, x.isLog = false := by
          simpa using hlogs
        by_cases he : e.isLog = true
        · rw [if_pos he]
          exact .refused hfull hnone he
        · rw [if_neg he]
          exact .dropped hnew hfull hnone (Bool.eq_false_iff.mpr he)
    · simp only [if_neg hfull]
      exact .added hnew (Nat.lt_of_not_le hfull)

theorem send_limit (q : Queue) (e : Event) : (q.send e).1.limit = q.limit := by
  have hsent := q.sent e
  generalize q.send e = out at hsent ⊢
  cases hsent <;> rfl

theorem step_limit (q : Queue) (op : Op) : (q.step op).limit = q.limit := by
  cases op with
  | send e => exact q.send_limit e
  | drain | takeNotice => rfl

theorem run_limit (q : Queue) (ops : List Op) : (q.run ops).limit = q.limit := by
  induction ops generalizing q with
  | nil => rfl
  | cons op rest ih => exact (ih (q.step op)).trans (q.step_limit op)

/-! ### What is kept -/

theorem filter_concat_of_pos {p : Event → Bool} (l : List Event) (he : p e = true) :
    (l ++ [e]).filter p = l.filter p ++ [e] := by
  simp [he]

theorem filter_concat_of_neg {p : Event → Bool} (l : List Event) (he : p e = false) :
    (l ++ [e]).filter p = l.filter p := by
  simp [he]

theorem filter_isLog_eq_nil {l : List Event} (h : ∀ x ∈ l, x.isLog = false) :
    l.filter Event.isLog = [] := by
  rw [List.filter_eq_nil_iff]
  intro x hx
  rw [h x hx]
  exact Bool.false_ne_true

theorem tail_rtake_succ {l : List Event} {n : Nat} (h : n < l.length) :
    (l.rtake (n + 1)).tail = l.rtake n := by
  have hstart : l.length - (n + 1) + 1 = l.length - n := by omega
  rw [List.rtake, List.rtake, List.tail_drop, hstart]

/-- The places taken by what no log line displaces: each event that is neither a log line nor a
frame has one, and each project that was drawn. -/
def occupied (sent : List Event) : Nat :=
  sent.countP Event.isPlain + (sent.filterMap Event.screenOf?).toFinset.card

theorem occupied_le_concat (sent : List Event) (e : Event) :
    occupied sent ≤ occupied (sent ++ [e]) := by
  unfold occupied
  apply Nat.add_le_add
  · rw [List.countP_append]
    exact Nat.le_add_right _ _
  · apply Finset.card_le_card
    rw [List.filterMap_append, List.toFinset_append]
    exact Finset.subset_union_left

theorem occupied_concat_of_isLog {sent : List Event} (he : e.isLog = true) :
    occupied (sent ++ [e]) = occupied sent := by
  have hscreen : e.screenOf? = none := by
    cases e with
    | log line => rfl
    | overlay | stream | ended => cases he
  simp [occupied, List.countP_append, Event.isPlain_of_isLog he, hscreen]

/-- A project that was drawn before takes no further place. -/
theorem occupied_concat_of_mem {sent : List Event} {project : String}
    (he : e.screenOf? = some project) (hmem : project ∈ sent.filterMap Event.screenOf?) :
    occupied (sent ++ [e]) = occupied sent := by
  have hsame : (sent.filterMap Event.screenOf? ++ [project]).toFinset =
      (sent.filterMap Event.screenOf?).toFinset := by
    ext x
    simp only [List.mem_toFinset, List.mem_append, List.mem_singleton]
    constructor
    · rintro (hx | rfl)
      · exact hx
      · exact hmem
    · exact .inl
  simp [occupied, List.countP_append, List.filterMap_append, Event.isPlain_of_screenOf? he, he,
    hsame]

theorem occupied_concat_of_new {sent : List Event} (he : e.isLog = false)
    (hnew : ∀ project, e.screenOf? = some project → project ∉ sent.filterMap Event.screenOf?) :
    occupied (sent ++ [e]) = occupied sent + 1 := by
  cases hs : e.screenOf? with
  | none =>
    have hplain : e.isPlain = true := by
      simp [Event.isPlain, he, hs]
    simp only [occupied, List.countP_append, List.filterMap_append, List.countP_singleton, hplain]
    simp [hs]
    omega
  | some project =>
    have hcard : (sent.filterMap Event.screenOf? ++ [project]).toFinset.card =
        (sent.filterMap Event.screenOf?).toFinset.card + 1 := by
      rw [List.toFinset_append, Finset.union_comm]
      exact Finset.card_insert_of_notMem fun hmem => hnew project hs (List.mem_toFinset.mp hmem)
    simp only [occupied, List.countP_append, List.filterMap_append, List.countP_singleton,
      Event.isPlain_of_screenOf? hs]
    simp only [List.filterMap_cons, hs, List.filterMap_nil, hcard]
    simp
    omega

/-- What holds of an empty queue and is kept by every send, as long as what is sent finds place,
holds of what was sent until the next drain. -/
theorem sends_induction {P : Queue → List Event → Prop} (hempty : P q [])
    (hnotice : ∀ q sent, P q sent → P q.takeNotice.1 sent)
    (hsend : ∀ q sent e, occupied (sent ++ [e]) ≤ q.limit → P q sent → P (q.send e).1 (sent ++ [e]))
    {since : List Op} (hsince : .drain ∉ since) (hle : occupied (sends since) ≤ q.limit) :
    P (q.run since) (sends since) := by
  induction since using List.reverseRecOn with
  | nil => exact hempty
  | append_singleton since op ih =>
    have hbefore : .drain ∉ since := fun hmem => hsince (List.mem_append_left _ hmem)
    rw [run_concat]
    cases op with
    | drain => simp at hsince
    | takeNotice =>
      have hsame : sends (since ++ [.takeNotice]) = sends since := by
        simp [sends]
      rw [hsame] at hle ⊢
      exact hnotice _ _ (ih hbefore hle)
    | send e =>
      have hmore : sends (since ++ [.send e]) = sends since ++ [e] := by
        simp [sends]
      rw [hmore] at hle ⊢
      have hkept := ih hbefore (Nat.le_trans (occupied_le_concat _ e) hle)
      apply hsend _ _ _ _ hkept
      rw [q.run_limit]
      exact hle

/-- What waits of what was sent since the queue was empty: everything that is neither a log line nor
a frame, the newest frame of each project, and of the log lines as many of the last ones as there is
place for. -/
structure Keeps (q : Queue) (sent : List Event) : Prop where
  plain : q.events.filter Event.isPlain = sent.filter Event.isPlain
  frames : ∀ project, q.events.filter (Event.draws project) =
    (sent.filter (Event.draws project)).getLast?.toList
  logs : q.events.filter Event.isLog = (sent.filter Event.isLog).rtake (q.limit - occupied sent)
  size : q.events.length = occupied sent + (q.events.filter Event.isLog).length

namespace Keeps

variable {sent : List Event}

/-- Whose project was drawn has a frame that waits. -/
theorem drawn_iff (h : Keeps q sent) (project : String) :
    project ∈ sent.filterMap Event.screenOf? ↔ ∃ x ∈ q.events, x.screenOf? = some project := by
  have hframes := h.frames project
  constructor
  · intro hmem
    obtain ⟨x, hx, hdraws⟩ := List.mem_filterMap.mp hmem
    have hne : sent.filter (Event.draws project) ≠ [] :=
      List.ne_nil_of_mem (List.mem_filter.mpr ⟨hx, Event.draws_iff.mpr hdraws⟩)
    rw [List.getLast?_eq_some_getLast hne] at hframes
    have hlast : (sent.filter (Event.draws project)).getLast hne ∈
        q.events.filter (Event.draws project) := by
      rw [hframes]
      exact List.mem_singleton_self _
    obtain ⟨hq, hd⟩ := List.mem_filter.mp hlast
    exact ⟨_, hq, Event.draws_iff.mp hd⟩
  · rintro ⟨x, hx, hdraws⟩
    have hmem : x ∈ q.events.filter (Event.draws project) :=
      List.mem_filter.mpr ⟨hx, Event.draws_iff.mpr hdraws⟩
    rw [hframes, Option.mem_toList] at hmem
    obtain ⟨hsent, -⟩ := List.mem_filter.mp (List.mem_of_getLast? hmem)
    exact List.mem_filterMap.mpr ⟨x, hsent, hdraws⟩

theorem not_drawn (h : Keeps q sent) (hnew : Fresh e q.events) :
    ∀ project, e.screenOf? = some project → project ∉ sent.filterMap Event.screenOf? := by
  intro project he hmem
  obtain ⟨x, hx, hdraws⟩ := (h.drawn_iff project).mp hmem
  exact hnew project he x hx hdraws

/-- No second frame of a project waits beside the first. -/
theorem alone (h : Keeps q sent) {project : String} {front rest : List Event} {old : Event}
    (hold : old.screenOf? = some project) (hfront : ∀ x ∈ front, x.screenOf? ≠ some project)
    (hq : q.events = front ++ old :: rest) :
    front.filter (Event.draws project) = [] ∧ rest.filter (Event.draws project) = [] := by
  have hone := h.frames project
  have hbefore : front.filter (Event.draws project) = [] := by
    rw [List.filter_eq_nil_iff]
    intro x hx hdraws
    exact hfront x hx (Event.draws_iff.mp hdraws)
  rw [hq, List.filter_append, hbefore, List.nil_append,
    List.filter_cons_of_pos (Event.draws_iff.mpr hold)] at hone
  refine ⟨hbefore, ?_⟩
  cases hlast : (sent.filter (Event.draws project)).getLast? with
  | none => simp [hlast] at hone
  | some x =>
    rw [hlast] at hone
    exact (List.cons.inj hone).2

theorem coalesced (h : Keeps q sent) {project : String} {front rest : List Event} {old : Event}
    (he : e.screenOf? = some project) (hold : old.screenOf? = some project)
    (hfront : ∀ x ∈ front, x.screenOf? ≠ some project) (hq : q.events = front ++ old :: rest) :
    Keeps { q with events := front ++ e :: rest } (sent ++ [e]) := by
  have hoccupied : occupied (sent ++ [e]) = occupied sent := by
    apply occupied_concat_of_mem he
    rw [h.drawn_iff, hq]
    exact ⟨old, by simp, hold⟩
  have hsame {p : Event → Bool} (hpe : p e = false) (hpold : p old = false) :
      (front ++ e :: rest).filter p = q.events.filter p := by
    rw [hq]
    simp [hpe, hpold]
  have hlogs := hsame (Event.isLog_of_screenOf? he) (Event.isLog_of_screenOf? hold)
  constructor
  · rw [hsame (Event.isPlain_of_screenOf? he) (Event.isPlain_of_screenOf? hold), h.plain,
      filter_concat_of_neg sent (Event.isPlain_of_screenOf? he)]
  · intro project'
    by_cases hp : project' = project
    · subst hp
      obtain ⟨hbefore, hbehind⟩ := h.alone hold hfront hq
      rw [List.filter_append, hbefore, List.nil_append,
        List.filter_cons_of_pos (Event.draws_iff.mpr he), hbehind,
        filter_concat_of_pos sent (Event.draws_iff.mpr he), List.getLast?_concat]
      rfl
    · have hother {x : Event} (hx : x.screenOf? = some project) : x.draws project' = false := by
        rw [Bool.eq_false_iff]
        intro hdraws
        exact hp (Option.some.inj ((Event.draws_iff.mp hdraws).symm.trans hx))
      rw [hsame (hother he) (hother hold), h.frames, filter_concat_of_neg sent (hother he)]
  · rw [hlogs, h.logs, hoccupied, filter_concat_of_neg sent (Event.isLog_of_screenOf? he)]
  · have hsize := h.size
    rw [hq, List.length_append, List.length_cons] at hsize
    rw [hlogs, hoccupied, hq, List.length_append, List.length_cons]
    exact hsize

/-- With a place that was free, or that a log line gave up, the event comes last. -/
theorem appended (h : Keeps q sent) (hnew : Fresh e q.events) {kept : List Event}
    (hplain : kept.filter Event.isPlain = q.events.filter Event.isPlain)
    (hframes : ∀ project, kept.filter (Event.draws project) = q.events.filter (Event.draws project))
    (hsize : kept.length = occupied sent + (kept.filter Event.isLog).length)
    (hlogs : (kept ++ [e]).filter Event.isLog =
      ((sent ++ [e]).filter Event.isLog).rtake (q.limit - occupied (sent ++ [e]))) (b : Bool) :
    Keeps { q with events := kept ++ [e], notified := b } (sent ++ [e]) := by
  constructor
  · rw [List.filter_append, List.filter_append, hplain, h.plain]
  · intro project
    cases hdraws : e.draws project with
    | true =>
      have hnone : q.events.filter (Event.draws project) = [] := by
        rw [List.filter_eq_nil_iff]
        intro x hx hx'
        exact hnew project (Event.draws_iff.mp hdraws) x hx (Event.draws_iff.mp hx')
      rw [filter_concat_of_pos kept hdraws, hframes, hnone, filter_concat_of_pos sent hdraws,
        List.getLast?_concat]
      rfl
    | false =>
      rw [filter_concat_of_neg kept hdraws, hframes, filter_concat_of_neg sent hdraws]
      exact h.frames project
  · exact hlogs
  · rw [List.length_append, List.length_singleton, hsize]
    cases he : e.isLog with
    | true =>
      rw [occupied_concat_of_isLog he, filter_concat_of_pos kept he, List.length_append,
        List.length_singleton, Nat.add_assoc]
    | false =>
      rw [occupied_concat_of_new he (h.not_drawn hnew), filter_concat_of_neg kept he]
      omega

theorem length_logs (h : Keeps q sent) : (q.events.filter Event.isLog).length =
    min (sent.filter Event.isLog).length (q.limit - occupied sent) := by
  rw [h.logs, List.rtake, List.length_drop]
  omega

/-- A queue that is not full has kept every log line. -/
theorem logs_of_room (h : Keeps q sent) (hroom : q.events.length < q.limit) :
    q.events.filter Event.isLog = sent.filter Event.isLog ∧
      (sent.filter Event.isLog).length < q.limit - occupied sent := by
  have hsize := h.size
  have hlength := h.length_logs
  have hall : (sent.filter Event.isLog).length - (q.limit - occupied sent) = 0 := by omega
  refine ⟨?_, by omega⟩
  rw [h.logs, List.rtake, hall, List.drop_zero]

/-- In a full queue the log lines take all that is left beside the others. -/
theorem logs_of_full (h : Keeps q sent) (hle : occupied sent ≤ q.limit)
    (hfull : q.limit ≤ q.events.length) :
    (q.events.filter Event.isLog).length = q.limit - occupied sent ∧
      q.limit - occupied sent ≤ (sent.filter Event.isLog).length := by
  have hsize := h.size
  have hlength := h.length_logs
  constructor <;> omega

theorem added (h : Keeps q sent) (hnew : Fresh e q.events) (hroom : q.events.length < q.limit)
    (b : Bool) : Keeps { q with events := q.events ++ [e], notified := b } (sent ++ [e]) := by
  obtain ⟨hall, hless⟩ := h.logs_of_room hroom
  refine h.appended hnew rfl (fun _ => rfl) h.size ?_ b
  have hfew : ((sent ++ [e]).filter Event.isLog).length -
      (q.limit - occupied (sent ++ [e])) = 0 := by
    cases he : e.isLog with
    | true =>
      rw [occupied_concat_of_isLog he, filter_concat_of_pos sent he, List.length_append,
        List.length_singleton]
      omega
    | false =>
      rw [occupied_concat_of_new he (h.not_drawn hnew), filter_concat_of_neg sent he]
      omega
  rw [List.rtake, hfew, List.drop_zero, List.filter_append, List.filter_append, hall]

theorem displaced (h : Keeps q sent) (hle : occupied (sent ++ [e]) ≤ q.limit)
    {front rest : List Event} {old : Event} (hnew : Fresh e q.events)
    (hfull : q.limit ≤ q.events.length) (hold : old.isLog = true)
    (hfront : ∀ x ∈ front, x.isLog = false) (hq : q.events = front ++ old :: rest) (b : Bool) :
    Keeps { q with events := front ++ rest ++ [e], notified := b } (sent ++ [e]) := by
  have hsame {p : Event → Bool} (hpold : p old = false) :
      (front ++ rest).filter p = q.events.filter p := by
    rw [hq]
    simp [hpold]
  have hhead : q.events.filter Event.isLog = old :: (front ++ rest).filter Event.isLog := by
    rw [hq, List.filter_append, List.filter_append, filter_isLog_eq_nil hfront,
      List.filter_cons_of_pos hold]
    rfl
  obtain ⟨hcount, hmany⟩ := h.logs_of_full
    (Nat.le_trans (occupied_le_concat sent e) hle) hfull
  have hplaces : q.limit - occupied sent = ((front ++ rest).filter Event.isLog).length + 1 := by
    rw [← hcount, hhead, List.length_cons]
  -- Without its oldest the log lines are the last ones still, one fewer.
  have hfewer : (front ++ rest).filter Event.isLog =
      (sent.filter Event.isLog).rtake ((front ++ rest).filter Event.isLog).length := by
    have hlogs := h.logs
    rw [hhead, hplaces] at hlogs
    have htail := congrArg List.tail hlogs
    rw [List.tail_cons, tail_rtake_succ (by omega)] at htail
    exact htail
  apply h.appended hnew (hsame (Event.isPlain_of_isLog hold))
    (fun project => hsame (Event.draws_of_isLog hold project))
  · have hsize := h.size
    rw [hhead, hq, List.length_append, List.length_cons, List.length_cons] at hsize
    rw [List.length_append]
    omega
  · cases he : e.isLog with
    | true =>
      rw [occupied_concat_of_isLog he, hplaces, filter_concat_of_pos _ he,
        filter_concat_of_pos sent he, List.rtake_concat_succ, ← hfewer]
    | false =>
      have hone := occupied_concat_of_new he (h.not_drawn hnew)
      have hplaces' : q.limit - occupied (sent ++ [e]) =
          ((front ++ rest).filter Event.isLog).length := by omega
      rw [hplaces', filter_concat_of_neg _ he, filter_concat_of_neg sent he]
      exact hfewer

theorem refused (h : Keeps q sent) (hle : occupied (sent ++ [e]) ≤ q.limit)
    (hfull : q.limit ≤ q.events.length) (hnone : ∀ x ∈ q.events, x.isLog = false)
    (he : e.isLog = true) : Keeps q (sent ++ [e]) := by
  have hempty := filter_isLog_eq_nil hnone
  obtain ⟨hcount, -⟩ := h.logs_of_full (Nat.le_trans (occupied_le_concat sent e) hle) hfull
  have hnoplace : q.limit - occupied sent = 0 := by
    rw [← hcount, hempty]
    rfl
  have hoccupied : occupied (sent ++ [e]) = occupied sent := occupied_concat_of_isLog he
  constructor
  · rw [h.plain, filter_concat_of_neg sent (Event.isPlain_of_isLog he)]
  · intro project
    rw [h.frames, filter_concat_of_neg sent (Event.draws_of_isLog he project)]
  · rw [hempty, hoccupied, hnoplace, List.rtake_zero]
  · rw [hoccupied]
    exact h.size

/-- There is a place for every event but log lines: when none of those waits to give way, it is
one that comes. -/
theorem isLog_of_full (h : Keeps q sent) (hle : occupied (sent ++ [e]) ≤ q.limit)
    (hnew : Fresh e q.events) (hfull : q.limit ≤ q.events.length)
    (hnone : ∀ x ∈ q.events, x.isLog = false) : e.isLog = true := by
  by_contra he
  have hsize := h.size
  rw [filter_isLog_eq_nil hnone, List.length_nil] at hsize
  have hone := occupied_concat_of_new (Bool.eq_false_iff.mpr he) (h.not_drawn hnew)
  omega

theorem send (h : Keeps q sent) (hle : occupied (sent ++ [e]) ≤ q.limit) :
    Keeps (q.send e).1 (sent ++ [e]) := by
  have hsent := q.sent e
  generalize q.send e = out at hsent ⊢
  cases hsent with
  | coalesced he hold hfront hq => exact h.coalesced he hold hfront hq
  | added hnew hroom => exact h.added hnew hroom _
  | displaced hnew hfull hold hfront hq => exact h.displaced hle hnew hfull hold hfront hq _
  | refused hfull hnone he => exact h.refused hle hfull hnone he
  | dropped hnew hfull hnone he =>
    rw [h.isLog_of_full hle hnew hfull hnone] at he
    cases he

theorem empty (hempty : q.events = []) : Keeps q [] := by
  constructor <;> simp [hempty, occupied]

theorem takeNotice (h : Keeps q sent) : Keeps q.takeNotice.1 sent :=
  ⟨h.plain, h.frames, h.logs, h.size⟩

theorem run (hempty : q.events = []) {since : List Op} (hsince : .drain ∉ since)
    (hle : occupied (sends since) ≤ q.limit) : Keeps (q.run since) (sends since) :=
  sends_induction (.empty hempty) (fun _ _ h => h.takeNotice) (fun _ _ _ hle h => h.send hle)
    hsince hle

end Keeps

/-- Whatever was done before: as long as what was sent since the last drain, but log lines, finds
place with one frame for each project, the next drain brings all of it in order, for each project
the newest frame only, of the log lines the last ones that find place beside the others, in order,
and nothing else. It leaves nothing. -/
theorem drained_as_sent (maxLen : Nat) (before : List Op) {since : List Op}
    (hsince : .drain ∉ since) (hplace : occupied (sends since) ≤ max maxLen 1) :
    let q := (((ofLimit maxLen).run before).drain.1).run since
    let sent := sends since
    let lines := min (sent.countP Event.isLog) (max maxLen 1 - occupied sent)
    q.drain.2.filter Event.isPlain = sent.filter Event.isPlain ∧
    (∀ project, q.drain.2.filter (Event.draws project) =
      (sent.filter (Event.draws project)).getLast?.toList) ∧
    q.drain.2.filter Event.isLog = (sent.filter Event.isLog).rtake lines ∧
    q.drain.2.length = occupied sent + lines ∧
    q.drain.1.events = [] := by
  intro q sent lines
  have hlimit : (((ofLimit maxLen).run before).drain.1).limit = max maxLen 1 :=
    (ofLimit maxLen).run_limit before
  have hkept : Keeps q sent := by
    apply Keeps.run rfl hsince
    rw [hlimit]
    exact hplace
  have hlimit' : q.limit = max maxLen 1 := (Queue.run_limit _ since).trans hlimit
  have hlogs : q.events.filter Event.isLog = (sent.filter Event.isLog).rtake lines := by
    rw [hkept.logs, hlimit', List.rtake, List.rtake, ← List.countP_eq_length_filter]
    have hstart : sent.countP Event.isLog - lines =
        sent.countP Event.isLog - (max maxLen 1 - occupied sent) := by omega
    rw [hstart]
  have hcount : (q.events.filter Event.isLog).length = lines := by
    rw [hkept.length_logs, hlimit', ← List.countP_eq_length_filter]
  have hsize := hkept.size
  rw [hcount] at hsize
  exact ⟨hkept.plain, hkept.frames, hlogs, hsize, rfl⟩

/-- More log lines than there is place for come in front of two events and two frames of one
project. -/
def crowd : List Op :=
  [.send (.log "a"), .send (.log "b"), .send (.log "c"), .send (.overlay .connecting),
    .send (.stream "p" (.screen {})), .takeNotice, .send (.log "d"), .send (.overlay .none),
    .send (.stream "p" (.screen { cols := 80 }))]

theorem crowd_drained :
    (.drain ∉ crowd ∧ occupied (sends crowd) ≤ max 4 1) ∧
    let q := (((ofLimit 4).run [.send (.log "z")]).drain.1).run crowd
    q.drain.2.filter Event.isPlain = [.overlay .connecting, .overlay .none] ∧
    q.drain.2.filter (Event.draws "p") = [.stream "p" (.screen { cols := 80 })] ∧
    q.drain.2.filter Event.isLog = [.log "d"] ∧ q.drain.2.length = 4 ∧ q.drain.1.events = [] := by
  have hsince : .drain ∉ crowd := by simp [crowd]
  have hplace : occupied (sends crowd) ≤ max 4 1 := by decide
  obtain ⟨hplain, hframes, hlogs, hsize, hleft⟩ :=
    drained_as_sent 4 [.send (.log "z")] hsince hplace
  refine ⟨⟨hsince, hplace⟩, hplain.trans ?_, (hframes "p").trans ?_, hlogs.trans ?_,
    hsize.trans ?_, hleft⟩ <;> decide

end Queue

end Vigil.Shell
