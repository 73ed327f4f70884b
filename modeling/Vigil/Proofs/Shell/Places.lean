import Vigil.Proofs.Shell.Queue

/-! The places of the queue, also when there are too few: how many are taken, and who gives way. -/
namespace Vigil.Shell.Queue

variable {q : Queue} {e : Event}

/-! ### How many are taken -/

/-- No more wait than there are places, and of no project two frames. -/
structure Bounded (q : Queue) : Prop where
  place : 0 < q.limit
  size : q.events.length ≤ q.limit
  frames : ∀ project, q.events.countP (Event.draws project) ≤ 1

namespace Bounded

theorem coalesced (h : Bounded q) {project : String} {front rest : List Event} {old : Event}
    (he : e.screenOf? = some project) (hold : old.screenOf? = some project)
    (hq : q.events = front ++ old :: rest) :
    Bounded { q with events := front ++ e :: rest } := by
  have hsize := h.size
  rw [hq] at hsize
  refine ⟨h.place, by simpa using hsize, fun project' => ?_⟩
  have hframes := h.frames project'
  have hsame : e.draws project' = old.draws project' := by
    rw [Event.draws, Event.draws, he, hold]
  rw [hq] at hframes
  simpa [List.countP_append, List.countP_cons, hsame] using hframes

/-- With a place that was free or given up the event comes behind what is left. -/
theorem appended (h : Bounded q) (hnew : Fresh e q.events) {kept : List Event}
    (hkept : kept.Sublist q.events) (hroom : kept.length < q.limit) (b : Bool) :
    Bounded { q with events := kept ++ [e], notified := b } := by
  have hsize : (kept ++ [e]).length ≤ q.limit := by
    rw [List.length_append, List.length_singleton]
    exact hroom
  refine ⟨h.place, hsize, fun project => ?_⟩
  have hless : kept.countP (Event.draws project) ≤ q.events.countP (Event.draws project) :=
    hkept.countP_le
  have hone := h.frames project
  cases hdraws : e.draws project with
  | false =>
    simp only [List.countP_append, List.countP_singleton, hdraws]
    exact hless.trans hone
  | true =>
    have hnone : q.events.countP (Event.draws project) = 0 := by
      rw [List.countP_eq_zero]
      intro x hx hx'
      exact hnew project (Event.draws_iff.mp hdraws) x hx (Event.draws_iff.mp hx')
    simp only [List.countP_append, List.countP_singleton, hdraws, if_true]
    omega

theorem send (h : Bounded q) (e : Event) : Bounded (q.send e).1 := by
  have hsent := q.sent e
  have hsize := h.size
  have hplace := h.place
  generalize q.send e = out at hsent ⊢
  cases hsent with
  | coalesced he hold hfront hq => exact h.coalesced he hold hq
  | added hnew hroom => exact h.appended hnew (List.Sublist.refl _) hroom _
  | @displaced front rest old hnew hfull hold hfront hq =>
    have hkept : (front ++ rest).Sublist q.events := by
      rw [hq]
      exact (List.Sublist.refl front).append (List.sublist_cons_self old rest)
    refine h.appended hnew hkept ?_ _
    rw [hq] at hsize
    simp at hsize ⊢
    omega
  | refused => exact h
  | dropped hnew hfull hnone he =>
    refine h.appended hnew (List.drop_sublist 1 _) ?_ _
    rw [List.length_drop]
    omega

theorem step (h : Bounded q) (op : Op) : Bounded (q.step op) := by
  cases op with
  | send e => exact h.send e
  | drain => exact ⟨h.place, Nat.zero_le _, fun _ => Nat.zero_le _⟩
  | takeNotice => exact ⟨h.place, h.size, h.frames⟩

theorem run (maxLen : Nat) (ops : List Op) : Bounded ((ofLimit maxLen).run ops) := by
  have hstart : Bounded (ofLimit maxLen) :=
    ⟨Nat.lt_of_lt_of_le Nat.one_pos (Nat.le_max_right maxLen 1), Nat.zero_le _,
      fun _ => Nat.zero_le _⟩
  induction ops using List.reverseRecOn with
  | nil => exact hstart
  | append_singleton ops op ih =>
    rw [run_concat]
    exact ih.step op

end Bounded

/-! ### Who gives way -/

/-- Of what waits `gone` gives way: one event at most, and one that is no log line only if the
queue is full of such and another comes; then it is the oldest. -/
structure GivesWay (q : Queue) (e : Event) (front gone rest : List Event) : Prop where
  split : q.events = front ++ gone ++ rest
  one : gone.length ≤ 1
  forced : ∀ x ∈ gone, x.isLog = false → q.limit ≤ q.events.length ∧
    (∀ y ∈ q.events, y.isLog = false) ∧ e.isLog = false ∧ front = []

theorem send_of_not_fresh (h : ¬ Fresh e q.events) :
    ∃ front old rest, q.events = front ++ old :: rest ∧ old.screenOf? = e.screenOf? ∧
      (q.send e).1.events = front ++ e :: rest := by
  have hsent := q.sent e
  generalize q.send e = out at hsent ⊢
  cases hsent with
  | coalesced he hold hfront hq => exact ⟨_, _, _, hq, hold.trans he.symm, rfl⟩
  | added hnew => exact absurd hnew h
  | displaced hnew => exact absurd hnew h
  | refused hfull hnone he =>
    have hnew : Fresh e q.events := by
      intro project hdraws
      rw [Event.isLog_of_screenOf? hdraws] at he
      cases he
    exact absurd hnew h
  | dropped hnew => exact absurd hnew h

theorem send_of_fresh (h : Fresh e q.events) :
    ∃ front gone rest, q.GivesWay e front gone rest ∧
      (q.send e).1.events = front ++ rest ++ if (q.send e).2 then [e] else [] := by
  have hsent := q.sent e
  generalize q.send e = out at hsent ⊢
  cases hsent with
  | @coalesced project front rest old he hold hfront hq =>
    have hmem : old ∈ q.events := by simp [hq]
    exact absurd hold (h project he old hmem)
  | added =>
    refine ⟨q.events, [], [], ⟨by simp, by simp, nofun⟩, by simp⟩
  | @displaced front rest old hnew hfull hold hfront hq =>
    refine ⟨front, [old], rest, ⟨by simp [hq], by simp, ?_⟩, by simp⟩
    intro x hx hlog
    rw [List.mem_singleton.mp hx, hold] at hlog
    cases hlog
  | refused =>
    refine ⟨q.events, [], [], ⟨by simp, by simp, nofun⟩, by simp⟩
  | dropped hnew hfull hnone he =>
    have hsplit : q.events = [] ++ q.events.take 1 ++ q.events.drop 1 :=
      (List.take_append_drop 1 q.events).symm
    refine ⟨[], q.events.take 1, q.events.drop 1, ⟨hsplit, by simp, ?_⟩, by simp⟩
    intro x hx hlog
    exact ⟨hfull, hnone, he, rfl⟩

theorem send_log (h : e.isLog = true) :
    (q.send e).1.events.filter (!·.isLog) = q.events.filter (!·.isLog) := by
  have hsent := q.sent e
  generalize q.send e = out at hsent ⊢
  cases hsent with
  | coalesced he =>
    rw [Event.isLog_of_screenOf? he] at h
    cases h
  | added => simp [h]
  | displaced hnew hfull hold hfront hq => simp [h, hold, hq]
  | refused => rfl
  | dropped hnew hfull hnone he =>
    rw [h] at he
    cases he

/-- The answer of a send: whether the event is the newest now and came to no queued frame. -/
theorem send_answer (q : Queue) (e : Event) :
    (q.send e).2 = true ↔ (q.send e).1.events.getLast? = some e ∧ Fresh e q.events := by
  have hsent := q.sent e
  generalize q.send e = out at hsent ⊢
  cases hsent with
  | @coalesced project front rest old he hold hfront hq =>
    have hstale : ¬ Fresh e q.events := fun hnew => hnew project he old (by simp [hq]) hold
    simp [hstale]
  | added hnew => simp [hnew]
  | displaced hnew => simp [hnew]
  | refused hfull hnone he =>
    have hlast : q.events.getLast? ≠ some e := by
      intro hlast
      rw [hnone e (List.mem_of_getLast? hlast)] at he
      cases he
    simp [hlast]
  | dropped hnew => simp [hnew]

/-- Whatever was sent and drained before: no more wait than there are places, and of no project two
frames. A frame whose project has one that waits replaces that one where it stands. Any other send
makes one event at most give way, a log line if one waits, else the oldest, and only when the queue
is full; for a log line nothing but a log line does. The answer tells whether the event is the
newest in the queue now and did not replace a frame. -/
theorem sends_keep_places (maxLen : Nat) (ops : List Op) (e : Event) :
    let q := (ofLimit maxLen).run ops
    let sent := q.send e
    q.events.length ≤ max maxLen 1 ∧
    (∀ project, q.events.countP (Event.draws project) ≤ 1) ∧
    (¬ Fresh e q.events → ∃ front old rest, q.events = front ++ old :: rest ∧
      old.screenOf? = e.screenOf? ∧ sent.1.events = front ++ e :: rest) ∧
    (Fresh e q.events → ∃ front gone rest, q.GivesWay e front gone rest ∧
      sent.1.events = front ++ rest ++ if sent.2 then [e] else []) ∧
    (e.isLog = true → sent.1.events.filter (!·.isLog) = q.events.filter (!·.isLog)) ∧
    (sent.2 = true ↔ sent.1.events.getLast? = some e ∧ Fresh e q.events) := by
  intro q sent
  have hbounded : Bounded q := Bounded.run maxLen ops
  have hlimit : q.limit = max maxLen 1 := (ofLimit maxLen).run_limit ops
  have hsize : q.events.length ≤ max maxLen 1 := hlimit ▸ hbounded.size
  exact ⟨hsize, hbounded.frames, send_of_not_fresh, send_of_fresh, send_log, q.send_answer e⟩

/-- The log line gives way to the first overlay, the frame to the second. -/
def pushedOut : List Op :=
  [.send (.stream "p" (.screen {})), .send (.log "a"), .send (.overlay .connecting),
    .send (.overlay .none)]

/-- The frame that comes again finds none of its project, and now the oldest overlay gives way. -/
theorem pushedOut_returns :
    let q := (ofLimit 2).run pushedOut
    let sent := q.send (.stream "p" (.screen {}))
    Fresh (.stream "p" (.screen {})) q.events ∧
      (∃ front gone rest, q.GivesWay (.stream "p" (.screen {})) front gone rest ∧
        sent.1.events = front ++ rest ++ if sent.2 then [.stream "p" (.screen {})] else []) ∧
      q.events = [.overlay .connecting, .overlay .none] ∧
      sent.1.events = [.overlay .none, .stream "p" (.screen {})] := by
  intro q sent
  have hevents : q.events = [.overlay .connecting, .overlay .none] := by decide
  have hfresh : Fresh (.stream "p" (.screen {})) q.events := by
    intro project _ x hx
    rw [hevents] at hx
    rcases List.mem_cons.mp hx with rfl | hx
    · exact nofun
    · rw [List.mem_singleton.mp hx]
      exact nofun
  obtain ⟨-, -, -, hways, -⟩ := sends_keep_places 2 pushedOut (.stream "p" (.screen {}))
  exact ⟨hfresh, hways hfresh, hevents, by decide⟩

/-- The newest event is a frame, and a newer one of its project comes. The old frame is gone though
there is room, and the new one is the newest in the queue though the answer is no. -/
theorem newest_frame_replaced :
    let old : Event := .stream "p" (.screen { cols := 80 })
    let new : Event := .stream "p" (.screen { cols := 100 })
    let q := (ofLimit 4).run [.send old]
    q.events.length < q.limit ∧ old ∈ q.events ∧ old ∉ (q.send new).1.events ∧
      (q.send new).1.events.getLast? = some new ∧ (q.send new).2 = false := by
  decide

end Vigil.Shell.Queue
