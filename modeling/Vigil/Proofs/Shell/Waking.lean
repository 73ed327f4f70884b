import Vigil.Proofs.Shell.Queue

/-! Wake-ups. Only an event that comes to an empty queue leaves one, and no second one waits beside
it; still a reader that drains once behind each wake-up misses nothing. -/
namespace Vigil.Shell.Queue

variable {q : Queue} {e : Event}

/-! ### What a send does to the wake-up -/

theorem send_notified (h : q.notified = true) (e : Event) : (q.send e).1.notified = true := by
  have hsent := q.sent e
  generalize q.send e = out at hsent ⊢
  cases hsent <;> simp [h]

/-- An event that an empty queue takes in leaves a wake-up. -/
theorem send_notified_of_empty (h : q.events = []) (hfilled : (q.send e).1.events ≠ []) :
    (q.send e).1.notified = true := by
  have hsent := q.sent e
  generalize q.send e = out at hsent hfilled ⊢
  cases hsent with
  | coalesced he hold hfront hq => simp [h] at hq
  | added => simp [h]
  | displaced hnew hfull hold hfront hq => simp [h] at hq
  | refused => exact absurd h hfilled
  | dropped => simp [h]

/-! ### Wake-ups that were taken -/

/-- In these steps a wake-up was taken. -/
def TakesNotice (q : Queue) (ops : List Op) : Prop :=
  ∃ front behind, ops = front ++ .takeNotice :: behind ∧ (q.run front).notified = true

theorem TakesNotice.append {ops : List Op} (h : q.TakesNotice ops) (more : List Op) :
    q.TakesNotice (ops ++ more) := by
  obtain ⟨front, behind, rfl, htaken⟩ := h
  exact ⟨front, behind ++ more, by simp, htaken⟩

/-- The send of `e` came to an empty queue, and since then events have always waited. -/
structure LastFilled (q : Queue) (before : List Op) (e : Event) (since : List Op) : Prop where
  empty : (q.run before).events = []
  filled : ∀ part, part <+: since → (q.run (before ++ .send e :: part)).events ≠ []

namespace LastFilled

variable {before since : List Op}

theorem of_concat {op : Op} (h : q.LastFilled before e (since ++ [op])) :
    q.LastFilled before e since :=
  ⟨h.empty, fun part hpart => h.filled part (hpart.trans (List.prefix_append since [op]))⟩

theorem concat {op : Op} (h : q.LastFilled before e since)
    (hfilled : (q.run (before ++ .send e :: (since ++ [op]))).events ≠ []) :
    q.LastFilled before e (since ++ [op]) := by
  refine ⟨h.empty, fun part hpart => ?_⟩
  rcases List.prefix_concat_iff.mp hpart with rfl | hpart
  · exact hfilled
  · exact h.filled part hpart

/-- The wake-up that this send left waits, or it was taken. -/
theorem noticed (h : q.LastFilled before e since) :
    (q.run (before ++ .send e :: since)).notified = true ∨
      (q.run (before ++ [.send e])).TakesNotice since := by
  induction since using List.reverseRecOn with
  | nil =>
    have hfilled := h.filled [] List.prefix_rfl
    rw [run_concat] at hfilled ⊢
    exact .inl (send_notified_of_empty h.empty hfilled)
  | append_singleton since op ih =>
    have hfilled := h.filled (since ++ [op]) List.prefix_rfl
    have hsplit : before ++ .send e :: (since ++ [op]) = (before ++ .send e :: since) ++ [op] := by
      simp
    rw [hsplit, run_concat] at hfilled ⊢
    rcases ih h.of_concat with hwaits | htaken
    · cases op with
      | send e' => exact .inl (send_notified hwaits e')
      | drain => exact absurd rfl hfilled
      | takeNotice =>
        have hrun : (q.run (before ++ [.send e])).run since = q.run (before ++ .send e :: since) := by
          simp [run]
        exact .inr ⟨since, [], rfl, by rw [hrun]; exact hwaits⟩
    · exact .inr (htaken.append [op])

end LastFilled

/-- When events wait, one of the sends was the one that last came to an empty queue. -/
theorem exists_lastFilled (hempty : q.events = []) {ops : List Op}
    (h : (q.run ops).events ≠ []) :
    ∃ before e since, ops = before ++ .send e :: since ∧ q.LastFilled before e since := by
  induction ops using List.reverseRecOn with
  | nil => exact absurd hempty h
  | append_singleton ops op ih =>
    by_cases hops : (q.run ops).events = []
    · rw [run_concat] at h
      cases op with
      | send e =>
        refine ⟨ops, e, [], rfl, hops, fun part hpart => ?_⟩
        rw [List.prefix_nil.mp hpart, run_concat]
        exact h
      | drain => exact absurd rfl h
      | takeNotice => exact absurd hops h
    · obtain ⟨before, e, since, rfl, hlast⟩ := ih hops
      have hsplit : before ++ .send e :: since ++ [op] = before ++ .send e :: (since ++ [op]) := by
        simp
      rw [hsplit] at h ⊢
      exact ⟨before, e, since ++ [op], rfl, hlast.concat h⟩

/-! ### A reader -/

/-- A queue and the one that reads it: it waits for a wake-up, drains once and waits again. -/
structure Reader where
  queue : Queue
  /-- A wake-up was taken, and the drain behind it is still to come. -/
  woken : Bool := false
  /-- What was read so far, the oldest first. -/
  read : List Event := []

namespace Reader

inductive Move where
  | send (e : Event)
  /-- Somebody else drains the queue. -/
  | drain
  /-- The reader goes on, if it can. -/
  | turn

def step (r : Reader) : Move → Reader
  | .send e => { r with queue := r.queue.step (.send e) }
  | .drain => { r with queue := r.queue.step .drain }
  | .turn =>
    if r.woken then
      { queue := r.queue.step .drain, woken := false, read := r.read ++ r.queue.drain.2 }
    else { r with queue := r.queue.step .takeNotice, woken := r.queue.takeNotice.2 }

def run (r : Reader) (moves : List Move) : Reader := moves.foldl step r

/-- Who lets events wait has been woken, or will be. -/
def Attentive (r : Reader) : Prop :=
  r.queue.events ≠ [] → r.woken = true ∨ r.queue.notified = true

theorem Attentive.step {r : Reader} (h : r.Attentive) (m : Move) : (r.step m).Attentive := by
  intro hwait
  cases m with
  | drain => exact absurd rfl hwait
  | send e =>
    by_cases hempty : r.queue.events = []
    · exact .inr (send_notified_of_empty hempty hwait)
    · exact (h hempty).imp_right fun hnotified => send_notified hnotified e
  | turn =>
    unfold Reader.step at hwait ⊢
    cases hwoken : r.woken with
    | true =>
      simp only [hwoken, if_true] at hwait
      exact absurd rfl hwait
    | false =>
      have hwait : r.queue.events ≠ [] := by simpa [hwoken, Queue.step, takeNotice] using hwait
      have hnotified : r.queue.notified = true := (h hwait).resolve_left (by simp [hwoken])
      exact .inl hnotified

theorem Attentive.run {r : Reader} (h : r.Attentive) (moves : List Move) :
    (r.run moves).Attentive := by
  induction moves generalizing r with
  | nil => exact h
  | cons m rest ih => exact ih (h.step m)

/-- In two turns an attentive reader has read all that waits. -/
theorem Attentive.turns {r : Reader} (h : r.Attentive) :
    ((r.step .turn).step .turn).queue.events = [] ∧
      ((r.step .turn).step .turn).read = r.read ++ r.queue.events := by
  cases hwoken : r.woken with
  | true => simp [Reader.step, hwoken, Queue.step, drain, takeNotice]
  | false =>
    cases hnotified : r.queue.notified with
    | true => simp [Reader.step, hwoken, hnotified, Queue.step, drain, takeNotice]
    | false =>
      have hempty : r.queue.events = [] := by
        by_contra hwait
        rcases h hwait with hw | hn
        · rw [hwoken] at hw
          cases hw
        · rw [hnotified] at hn
          cases hn
      simp [Reader.step, hwoken, hnotified, hempty, Queue.step, takeNotice]

end Reader

/-- Whatever is sent, drained and taken: when events wait and no wake-up does, then one was taken
since the send that last came to an empty queue. So a reader that drains once behind each wake-up
that it takes always has a wake-up or a drain still to come when events wait, and in two turns it
has read all of them. -/
theorem waiting_is_announced (maxLen : Nat) :
    (∀ ops : List Op, ((ofLimit maxLen).run ops).events ≠ [] →
      ((ofLimit maxLen).run ops).notified = false →
      ∃ before e since, ops = before ++ .send e :: since ∧
        (ofLimit maxLen).LastFilled before e since ∧
        ((ofLimit maxLen).run (before ++ [.send e])).TakesNotice since) ∧
    ∀ moves, let r := Reader.run { queue := ofLimit maxLen } moves
      (r.queue.events ≠ [] → r.woken = true ∨ r.queue.notified = true) ∧
      ((r.step .turn).step .turn).queue.events = [] ∧
      ((r.step .turn).step .turn).read = r.read ++ r.queue.events := by
  constructor
  · intro ops hwait hnone
    obtain ⟨before, e, since, rfl, hlast⟩ := exists_lastFilled rfl hwait
    refine ⟨before, e, since, rfl, hlast, hlast.noticed.resolve_left ?_⟩
    rw [hnone]
    exact Bool.false_ne_true
  · intro moves r
    have hstart : Reader.Attentive { queue := ofLimit maxLen } := fun hwait => absurd rfl hwait
    have hattentive : r.Attentive := hstart.run moves
    exact ⟨hattentive, hattentive.turns⟩

/-- A drain takes no wake-up: the one of the first event still waits when the next comes, and once
it is taken there is none for the log lines, of which one gives way. -/
theorem drained_unnoticed :
    let q := ofLimit 2
    let ops : List Op := [.send (.overlay .connecting), .drain, .send (.log "a"), .takeNotice,
      .send (.log "b"), .send (.log "c")]
    ((q.run ops).events ≠ [] ∧ (q.run ops).notified = false) ∧
      ∃ before e since, ops = before ++ .send e :: since ∧ q.LastFilled before e since ∧
        (q.run (before ++ [.send e])).TakesNotice since := by
  intro q ops
  have hwait : (q.run ops).events ≠ [] := by decide
  have hnone : (q.run ops).notified = false := by decide
  exact ⟨⟨hwait, hnone⟩, (waiting_is_announced 2).1 ops hwait hnone⟩

end Vigil.Shell.Queue
