import Vigil.Proofs.Daemon.Adoption
import Vigil.Rehearsal.World

/-! When a watch reports a crash. It goes by the watched process and by whether a record was left,
and not by whose record that is. -/
namespace Vigil.Daemon

variable {σ : Type}

/-- A deed that neither reports a crash nor takes the session to a restart. -/
def Deed.isRoutine : Deed → Bool
  | .tell (.crashed _) => false
  | .write session => session.phase != .restarting
  | _ => true

variable {v : Supervisor σ} {s s' : Supervision σ}

theorem Routine.deeds (h : Routine v s s') :
    ∃ ds, s'.deeds = s.deeds ++ ds ∧ ∀ d ∈ ds, d.isRoutine = true := by
  cases h with
  | probe pid => exact ⟨_, s.note_deeds _, by simp [Deed.isRoutine]⟩
  | readLive => exact ⟨_, s.note_deeds _, by simp [Deed.isRoutine]⟩
  | readLeft => exact ⟨_, s.note_deeds _, by simp [Deed.isRoutine]⟩
  | find => exact ⟨_, s.note_deeds _, by simp [Deed.isRoutine]⟩
  | launch path => exact ⟨_, Supervision.note_deeds _ _, by simp [Deed.isRoutine]⟩
  | start => exact ⟨_, s.write_deeds _, by simp [Deed.isRoutine]⟩
  | serve r n hr hn =>
    refine ⟨[.write (.serving r), .tell n], by simp, ?_⟩
    rcases hn with rfl | rfl <;> simp [Deed.isRoutine, Session.serving]
  | fail => exact ⟨_, s.write_deeds _, by simp [Deed.isRoutine]⟩
  | postpone n e delay => exact ⟨_, s.tell_deeds _, by simp [Deed.isRoutine]⟩
  | abandon n =>
    exact ⟨[.write {}, .tell (.abandoned n)], by simp, by simp [Deed.isRoutine]⟩
  | shutdown hleft =>
    exact ⟨[.write .down, .tell .shutdown], by simp, by simp [Deed.isRoutine, Session.down]⟩

theorem Routines.deeds (h : Routines v s s') :
    ∃ ds, s'.deeds = s.deeds ++ ds ∧ ∀ d ∈ ds, d.isRoutine = true := by
  induction h with
  | refl => exact ⟨[], by simp, by simp⟩
  | tail _ hr ih =>
    obtain ⟨ds, hds, hroutine⟩ := ih
    obtain ⟨ds', hds', hroutine'⟩ := hr.deeds
    refine ⟨ds ++ ds', ?_, List.forall_mem_append.mpr ⟨hroutine, hroutine'⟩⟩
    rw [hds', hds, List.append_assoc]

/-- What goes with the report of the crashes of `reported`: each is one, and none comes without
the session going to a restart. -/
structure Reporting (reported : UInt32 → Prop) (deeds : List Deed) : Prop where
  crashed : ∀ pid, .tell (.crashed pid) ∈ deeds ↔ reported pid
  restarting : (∃ session, .write session ∈ deeds ∧ session.phase = .restarting) ↔
    ∃ pid, reported pid

namespace Reporting

variable {reported : UInt32 → Prop} {deeds : List Deed}

theorem of_routine (hno : ∀ pid, ¬ reported pid) (h : ∀ d ∈ deeds, d.isRoutine = true) :
    Reporting reported deeds := by
  constructor
  · intro pid
    refine ⟨fun hmem => ?_, fun hr => absurd hr (hno pid)⟩
    cases h _ hmem
  · constructor
    · rintro ⟨session, hmem, hphase⟩
      have hr := h _ hmem
      simp [Deed.isRoutine, hphase] at hr
    · rintro ⟨pid, hr⟩
      exact absurd hr (hno pid)

theorem of_crash {pid : UInt32} {before : List Deed} {session : Session}
    (hpid : ∀ pid', reported pid' ↔ pid' = pid) (hbefore : ∀ d ∈ before, d.isRoutine = true)
    (hphase : session.phase = .restarting) (h : ∀ d ∈ deeds, d.isRoutine = true) :
    Reporting reported (before ++ .write session :: .tell (.crashed pid) :: deeds) := by
  have hcalm : Reporting (fun _ => False) (before ++ deeds) :=
    of_routine (fun _ => id) (List.forall_mem_append.mpr ⟨hbefore, h⟩)
  constructor
  · intro pid'
    have hno := hcalm.crashed pid'
    simp only [List.mem_append, iff_false, not_or] at hno
    simp [hpid, hno]
  · refine ⟨fun _ => ⟨pid, (hpid pid).mpr rfl⟩, fun _ => ⟨session, by simp, hphase⟩⟩

end Reporting

/-- A watch sees one crash at most. -/
theorem Watch.Reports.unique {w : Watch} {cancelled : Bool} {pid pid' : UInt32}
    {left left' : Record} (h : w.Reports v s cancelled pid left)
    (h' : w.Reports v s cancelled pid' left') : pid' = pid :=
  Option.some.inj (h'.watched.symm.trans h.watched)

theorem Watch.turn_reporting (v : Supervisor σ) (s : Supervision σ) (cancelled : Bool)
    (w : Watch) : ∃ ds, (w.turn v s cancelled).2.deeds = s.deeds ++ ds ∧
      Reporting (fun pid => ∃ left, w.Reports v s cancelled pid left) ds := by
  cases w.judged v s cancelled with
  | quiet hno h =>
    obtain ⟨ds, hds, hroutine⟩ := h.deeds
    refine ⟨ds, hds, .of_routine ?_ hroutine⟩
    rintro pid ⟨left, hr⟩
    exact hno pid left hr
  | crash pid left hreports h =>
    obtain ⟨ds, hds, hroutine⟩ := h.deeds
    have hone : ∀ pid', (∃ left, w.Reports v s cancelled pid' left) ↔ pid' = pid := by
      intro pid'
      constructor
      · rintro ⟨left', hr⟩
        exact hreports.unique hr
      · rintro rfl
        exact ⟨left, hreports⟩
    have hbefore : ∀ d ∈ [Deed.probe pid false, .readLeft (some left)], d.isRoutine = true := by
      simp [Deed.isRoutine]
    let restarting : Session := { s.session with phase := .restarting, watchedPid := none }
    have hphase : restarting.phase = .restarting := rfl
    refine ⟨_, ?_, .of_crash hone hbefore hphase hroutine⟩
    rw [hds]
    simp [Supervision.reportCrash, Supervision.sawCrash, restarting]

theorem Worker.turn_reporting (v : Supervisor σ) (s : Supervision σ) (cancelled : Bool)
    (w : Worker) : ∃ ds, (w.turn v s cancelled).2.deeds = s.deeds ++ ds ∧
      Reporting (fun pid => ∃ watch left, w = .watcher watch ∧
        watch.Reports v s cancelled pid left) ds := by
  cases w with
  | caller e =>
    obtain ⟨ds, hds, hroutine⟩ := (Routines.ensureTurn v s cancelled e).deeds
    refine ⟨ds, hds, .of_routine ?_ hroutine⟩
    rintro pid ⟨watch, left, hw, -⟩
    cases hw
  | watcher w =>
    obtain ⟨ds, hds, hreporting⟩ := w.turn_reporting v s cancelled
    have hsame : ∀ pid, (∃ left, w.Reports v s cancelled pid left) ↔
        ∃ watch left, Worker.watcher w = .watcher watch ∧ watch.Reports v s cancelled pid left := by
      intro pid
      constructor
      · rintro ⟨left, hr⟩
        exact ⟨w, left, rfl, hr⟩
      · rintro ⟨watch, left, hw, hr⟩
        cases hw
        exact ⟨left, hr⟩
    exact ⟨ds, hds, by simpa only [← hsame] using hreporting⟩

/-- What one more turn reports, wherever a shared supervisor has got to. A crash is reported, and
the session goes to a restart, exactly if a watch is due to find that the process it watches has
ended while some record is left. That process is the daemon taken over last. So the record left
names the process that is reported in just those turns in which a watch that finds its process
ended finds a record of that process, if any. -/
theorem crash_reported_iff (v : Supervisor σ) (world : σ) (moves : List (Move σ)) (n : Nat)
    (m : Moment σ) :
    let c := Crew.run v (.fresh world) moves
    let reports (pid : UInt32) (left : Record) := ∃ watch, c.workers[n]? = some (.watcher watch) ∧
      watch.Reports v (c.state.meet m) m.cancelled pid left
    ∃ deeds, (Crew.step v c (.turn n m)).state.deeds = c.state.deeds ++ deeds ∧
      (∀ pid, .tell (.crashed pid) ∈ deeds ↔ ∃ left, reports pid left) ∧
      ((∃ session, .write session ∈ deeds ∧ session.phase = .restarting) ↔
        ∃ pid left, reports pid left) ∧
      (∀ pid, .tell (.crashed pid) ∈ deeds → (adopted c.state.deeds).map (·.pid) = some pid) ∧
      ((∀ pid, .tell (.crashed pid) ∈ deeds →
          ∃ left, v.surroundings.left m.world = some left ∧ left.pid = pid) ↔
        ∀ pid left, reports pid left → left.pid = pid) := by
  intro c reports
  have hadopting : Adopting c.state := Adopting.crew v world moves
  obtain ⟨deeds, hdeeds, hreporting⟩ : ∃ deeds,
      (Crew.step v c (.turn n m)).state.deeds = c.state.deeds ++ deeds ∧
        Reporting (fun pid => ∃ left, reports pid left) deeds := by
    cases hw : c.workers[n]? with
    | none =>
      rw [Crew.step_turn_of_none hw]
      refine ⟨[], by simp, .of_routine ?_ (by simp)⟩
      rintro pid ⟨left, watch, hwatch, -⟩
      cases hw.symm.trans hwatch
    | some w =>
      rw [Crew.step_turn_of_some hw]
      obtain ⟨ds, hds, hreporting⟩ := w.turn_reporting v (c.state.meet m) m.cancelled
      refine ⟨ds, hds, ?_⟩
      have hsame : ∀ pid, (∃ left, reports pid left) ↔ ∃ watch left, w = .watcher watch ∧
          watch.Reports v (c.state.meet m) m.cancelled pid left := by
        intro pid
        simp only [reports, hw, Option.some.injEq]
        exact exists_comm
      simpa only [hsame] using hreporting
  refine ⟨deeds, hdeeds, hreporting.crashed, hreporting.restarting, ?_, ?_⟩
  · intro pid hmem
    obtain ⟨left, watch, -, hr⟩ := (hreporting.crashed pid).mp hmem
    exact hadopting.watched pid hr.watched
  · constructor
    · intro hnames pid left hreports
      obtain ⟨left', hleft, hpid⟩ := hnames pid ((hreporting.crashed pid).mpr ⟨left, hreports⟩)
      obtain ⟨watch, -, hr⟩ := hreports
      have heq : left' = left := Option.some.inj (hleft.symm.trans hr.left)
      rwa [← heq]
    · intro hnames pid hmem
      obtain ⟨left, hreports⟩ := (hreporting.crashed pid).mp hmem
      obtain ⟨watch, hw, hr⟩ := hreports
      exact ⟨left, hr.left, hnames pid left ⟨watch, hw, hr⟩⟩

/-- A daemon 100 that another one, 200, has replaced: the end of 100 is reported as a crash though
the record left names 200, which is alive. -/
theorem replaced_daemon_reported :
    let v : Supervisor Rehearsal.World := ⟨Rehearsal.World.surroundings, {}⟩
    let before : Rehearsal.World := { record := some { port := 1, pid := 100 }, alive := [100] }
    let after : Rehearsal.World := { record := some { port := 1, pid := 200 }, alive := [200] }
    let c := Crew.run v (.fresh before)
      [.call, .turn 0 { world := before }, .watch, .turn 1 { world := before }]
    let c' := Crew.step v c (.turn 1 { world := after, elapsed := 2_000_000_000 })
    .tell (.crashed 100) ∉ c.state.deeds ∧ .tell (.crashed 100) ∈ c'.state.deeds ∧
      (v.surroundings.left after).map (·.pid) = some 200 ∧
      v.surroundings.isAlive after 200 = true := by
  decide

end Vigil.Daemon
