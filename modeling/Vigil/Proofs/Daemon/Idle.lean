import Vigil.Proofs.Daemon.Chronicle

/-! What a session goes by when nobody seeks a daemon any more. A watch that gives up forgets the
daemon it looked after; a call that fails does not, and the next watch goes by what is left. -/
namespace Vigil.Daemon

variable {σ : Type}

/-- The daemon that a session goes by, and the process that is watched. -/
structure Holding where
  record : Option Record := none
  watchedPid : Option UInt32 := none
deriving DecidableEq

def Session.holding (session : Session) : Holding := ⟨session.record, session.watchedPid⟩

/-- What is held after a deed: only what is told makes a difference. -/
def Deed.hold (h : Holding) : Deed → Holding
  | .tell (.ready r) | .tell (.restarted r) => ⟨some r, some r.pid⟩
  | .tell (.crashed _) => { h with watchedPid := none }
  | .tell (.abandoned _) | .tell .shutdown => {}
  | _ => h

/-- What is held after these deeds. -/
def holding (deeds : List Deed) : Holding := deeds.foldl Deed.hold {}

@[simp] theorem holding_concat (deeds : List Deed) (d : Deed) :
    holding (deeds ++ [d]) = d.hold (holding deeds) := by
  simp [holding, List.foldl_append]

/-- The session holds what its past says. -/
def Remembers (s : Supervision σ) : Prop := s.session.holding = holding s.deeds

namespace Remembers

variable {v : Supervisor σ} {s s' : Supervision σ}

/-- A deed that makes no difference. -/
theorem plain (h : Remembers s) {d : Deed} (hd : d.hold (holding s.deeds) = holding s.deeds)
    (hdeeds : s'.deeds = s.deeds ++ [d]) (hsession : s'.session.holding = s.session.holding) :
    Remembers s' := by
  unfold Remembers
  rw [hdeeds, holding_concat, hd, hsession]
  exact h

theorem routine (hr : Routine v s s') (h : Remembers s) : Remembers s' := by
  cases hr with
  | probe pid => exact h.plain rfl (s.note_deeds _) rfl
  | readLive => exact h.plain rfl (s.note_deeds _) rfl
  | readLeft => exact h.plain rfl (s.note_deeds _) rfl
  | find => exact h.plain rfl (s.note_deeds _) rfl
  | launch path => exact h.plain rfl (Supervision.note_deeds _ _) rfl
  | start => exact h.plain rfl (s.write_deeds _) rfl
  | fail => exact h.plain rfl (s.write_deeds _) rfl
  | postpone n e delay => exact h.plain rfl (s.tell_deeds _) rfl
  | serve r n hr hn =>
    unfold Remembers
    rw [Supervision.tell_deeds, holding_concat]
    rcases hn with rfl | rfl <;> rfl
  | abandon n =>
    unfold Remembers
    rw [Supervision.tell_deeds, holding_concat]
    rfl
  | shutdown hleft =>
    unfold Remembers
    rw [Supervision.tell_deeds, holding_concat]
    rfl

theorem act (ha : Act v s s') (h : Remembers s) : Remembers s' := by
  cases ha with
  | routine hr => exact h.routine hr
  | crash pid =>
    have hrecord : s.session.record = (holding s.deeds).record := congrArg Holding.record h
    unfold Remembers Supervision.reportCrash
    rw [Supervision.tell_deeds, Supervision.write_deeds, holding_concat, holding_concat]
    exact congrArg (Holding.mk · none) hrecord

theorem crew (v : Supervisor σ) (world : σ) (moves : List (Move σ)) :
    Remembers (Crew.run v (.fresh world) moves).state := by
  have hmeet : ∀ s (m : Moment σ), Remembers s → Remembers (s.meet m) := fun _ _ h => h
  have hfresh : Remembers (Crew.fresh world).state := rfl
  exact Crew.run_invariant hmeet (fun _ _ hact h => h.act hact) hfresh moves

end Remembers

/-! ### What is told -/

namespace Supervision

variable (s : Supervision σ)

@[simp] theorem note_notices (d : Deed) :
    (s.note d).notices = s.notices ++ match d with
      | .tell n => [(s.now, n)]
      | _ => [] := by
  cases d <;> simp [notices, note]

@[simp] theorem tell_notices (n : Notice) : (s.tell n).notices = s.notices ++ [(s.now, n)] := by
  simp [tell]

@[simp] theorem write_notices (session : Session) : (s.write session).notices = s.notices := by
  have hsession : ({ s with session } : Supervision σ).notices = s.notices := rfl
  simp [write, hsession]

@[simp] theorem within_notices (world : σ) : (s.within world).notices = s.notices := rfl

@[simp] theorem meet_notices (m : Moment σ) : (s.meet m).notices = s.notices := rfl

/-- At most the phase has changed, and nobody was told. -/
def Quiet (s s' : Supervision σ) : Prop :=
  s'.notices = s.notices ∧ ∃ phase, s'.session = { s.session with phase }

end Supervision

namespace Supervisor

variable (v : Supervisor σ) (s : Supervision σ)

theorem searching_quiet : s.Quiet (searching s) := by
  unfold searching
  by_cases hphase : s.session.phase = .restarting
  · rw [if_pos hphase]
    exact ⟨by simp, s.session.phase, rfl⟩
  · rw [if_neg hphase]
    exact ⟨by simp, .starting, rfl⟩

theorem begin_quiet : s.Quiet (v.begin s).2 := by
  have hb := v.begun s
  obtain ⟨hnotices, phase, hsession⟩ := searching_quiet s
  generalize (v.begin s).1 = p, (v.begin s).2 = s' at hb
  cases hb with
  | found r => exact ⟨by simp, s.session.phase, rfl⟩
  | notFound => exact ⟨by simp [hnotices], phase, by simp [hsession]⟩
  | refused => exact ⟨by simp [hnotices], phase, by simp [hsession]⟩
  | launched => exact ⟨by simp [hnotices], phase, by simp [hsession]⟩

theorem look_quiet (n : Nat) : s.Quiet (v.look s n).2 := by
  have hl := v.looked s n
  generalize (v.look s n).1 = p, (v.look s n).2 = s' at hl
  cases hl with
  | found r => exact ⟨by simp, s.session.phase, rfl⟩
  | missing => exact ⟨by simp, s.session.phase, rfl⟩

end Supervisor

/-! ### Calls that fail -/

/-- The failure that a call has come to. -/
def Ensure.failure? : Ensure → Option StartError
  | done _ (.error err) => some err
  | _ => none

def Ensure.isDone : Ensure → Bool
  | done .. => true
  | _ => false

theorem Ensure.follow_failed {s s' : Supervision σ} (hquiet : s.Quiet s')
    {p : Supervisor.Progress} {err : StartError} (h : (follow s' p).1.failure? = some err) :
    (follow s' p).2.notices = s.notices ∧
      (follow s' p).2.session = { s.session with phase := .idle } := by
  obtain ⟨hnotices, phase, hsession⟩ := hquiet
  cases p with
  | found r => cases h
  | polling look due => cases h
  | failed err' => simp [follow, hnotices, hsession]

/-- A call that fails makes the session idle, changes nothing else of it, and tells nobody. -/
theorem Ensure.turn_failed (v : Supervisor σ) (s : Supervision σ) (cancelled : Bool) {e : Ensure}
    (hopen : e.isDone = false) {err : StartError}
    (h : (e.turn v s cancelled).1.failure? = some err) :
    (e.turn v s cancelled).2.notices = s.notices ∧
      (e.turn v s cancelled).2.session = { s.session with phase := .idle } := by
  have ht := e.turned v s cancelled
  generalize e.turn v s cancelled = p at ht h ⊢
  cases ht with
  | called => exact follow_failed (v.begin_quiet s) h
  | done => cases hopen
  | stopped => exact follow_failed ⟨rfl, _, rfl⟩ h
  | early => cases h
  | looked look => exact follow_failed (v.look_quiet s look) h

/-- A call comes back with a failure in this turn. -/
def Crew.Fails (v : Supervisor σ) (c : Crew σ) (n : Nat) (m : Moment σ) (err : StartError) :
    Prop :=
  ∃ e e' : Ensure, c.workers[n]? = some (.caller e) ∧ e.isDone = false ∧
    (step v c (.turn n m)).workers[n]? = some (.caller e') ∧ e'.failure? = some err

theorem Crew.Fails.state {v : Supervisor σ} {c : Crew σ} {n : Nat} {m : Moment σ}
    {err : StartError} (h : c.Fails v n m err) :
    (step v c (.turn n m)).state.notices = c.state.notices ∧
      (step v c (.turn n m)).state.session = { c.state.session with phase := .idle } := by
  obtain ⟨e, e', hw, hopen, hw', herr⟩ := h
  have hn : n < c.workers.length := (List.getElem?_eq_some_iff.mp hw).1
  rw [step_turn_of_some hw] at hw' ⊢
  have he : (e.turn v (c.state.meet m) m.cancelled).1 = e' := by
    simpa [hn, Worker.turn] using hw'
  exact Ensure.turn_failed v (c.state.meet m) m.cancelled hopen (he ▸ herr)

/-! ### The watch that comes behind -/

namespace Watch

variable (v : Supervisor σ) (s : Supervision σ)

theorem run_first_tick (m m' : Moment σ) (hgoes : m'.cancelled = false)
    (hdue : v.policies.watch.interval.nanos ≤ m'.elapsed) :
    run v (.called, s) [m, m'] = tick v ((s.meet m).meet m') := by
  simp [run, turn, rest, hgoes, hdue]

theorem follow_ne_notRunning (pid : UInt32) (k : Nat) (p : Supervisor.Progress) :
    (follow v s pid k p).1 ≠ .ended .notRunning := by
  cases p with
  | found r => simp [follow, rest]
  | polling look due => simp [follow]
  | failed e =>
    unfold follow
    cases v.policies.restart.delayAfter (k + 1) <;> simp

/-- A restart goes on telling behind what was told before. -/
theorem restart_notices (pid : UInt32) (k : Nat) :
    s.notices <+: (restart v s pid k).2.notices := by
  have hbegin : (v.begin s).2.notices = s.notices := (v.begin_quiet s).1
  have hrestart : restart v s pid k = follow v (v.begin s).2 pid k (v.begin s).1 := rfl
  rw [hrestart, ← hbegin]
  cases (v.begin s).1 with
  | found r => simp [follow, rest]
  | polling look due => simp [follow]
  | failed e =>
    unfold follow
    cases v.policies.restart.delayAfter (k + 1) <;> simp

/-- All that a tick can come to, by whom the session names: nobody, a living process or a dead
one. Only the last is told of. -/
theorem tick_tells (m : Moment σ) :
    ((tick v (s.meet m)).1 = .ended .notRunning ↔ s.session.watchedPid = none) ∧
      ((tick v (s.meet m)).2.notices = s.notices ↔ ∀ pid, s.session.watchedPid = some pid →
        v.surroundings.isAlive m.world pid = true) := by
  have ht := tick_turned v (s.meet m) (Nat.le_refl (s.meet m).now)
  generalize tick v (s.meet m) = p at ht ⊢
  cases ht with
  | early hdue hnow =>
    have heq : (s.meet m).now = _ := Option.some.inj hdue
    omega
  | notRunning hdue hpid =>
    have hpid : s.session.watchedPid = none := hpid
    simp [hpid]
  | alive hdue pid hpid halive =>
    have hpid : s.session.watchedPid = some pid := hpid
    simpa [hpid, rest] using halive
  | gone hdue pid hpid hdead hleft =>
    have hpid : s.session.watchedPid = some pid := hpid
    simpa [hpid, shutdown] using hdead
  | @crashed _ pid left hr =>
    have hpid : s.session.watchedPid = some pid := hr.watched
    have hdead : v.surroundings.isAlive m.world pid = false := hr.dead
    have hreport : (((s.meet m).sawCrash pid left).reportCrash pid).notices =
        s.notices ++ [((s.meet m).now, .crashed pid)] := by
      simp [Supervision.sawCrash, Supervision.reportCrash]
    have hgrown := restart_notices v (((s.meet m).sawCrash pid left).reportCrash pid) pid 0
    refine ⟨?_, ?_⟩
    · simp [hpid, restart, follow_ne_notRunning]
    · constructor
      · intro hsame
        have hlen := hgrown.length_le
        rw [hreport, hsame, List.length_append, List.length_singleton] at hlen
        omega
      · intro halive
        rw [halive pid hpid] at hdead
        cases hdead

end Watch

/-- What a shared session goes by, however calls and watches take turns, is the daemon that was
taken over last, until it is told that this one went on purpose or was given up; the process is no
longer watched once its crash is told. So an idle session holds nothing exactly if that is what
remains. A call that fails makes the session idle, leaves the rest of it as it was and tells nobody.
A watch behind it finds nothing to watch on its first tick exactly if no process was watched before
the call failed, and tells nobody then exactly if the process watched, if any, is alive. -/
theorem idle_forgets_iff (v : Supervisor σ) (world : σ) (moves : List (Move σ)) :
    let c := Crew.run v (.fresh world) moves
    let held := holding c.state.deeds
    c.state.session.holding = held ∧
      (c.state.session.phase = .idle →
        (c.state.session.record = none ∧ c.state.session.watchedPid = none ↔ held = {})) ∧
      ∀ n m err, c.Fails v n m err →
        let s := (Crew.step v c (.turn n m)).state
        s.session = ⟨held.record, held.watchedPid, .idle⟩ ∧ s.notices = c.state.notices ∧
          ∀ m₁ m₂, m₂.cancelled = false → v.policies.watch.interval.nanos ≤ m₂.elapsed →
            let w := Watch.run v (.called, s) [m₁, m₂]
            (w.1 = .ended .notRunning ↔ held.watchedPid = none) ∧
              (w.2.notices = s.notices ↔ ∀ pid, held.watchedPid = some pid →
                v.surroundings.isAlive m₂.world pid = true) := by
  intro c held
  have hheld : c.state.session.holding = held := Remembers.crew v world moves
  refine ⟨hheld, fun _ => ?_, fun n m err hfails => ?_⟩
  · rw [← hheld]
    simp [Session.holding]
  · intro s
    obtain ⟨hnotices, hsession⟩ := hfails.state
    have hsession : s.session = ⟨held.record, held.watchedPid, .idle⟩ := by
      rw [← hheld]
      exact hsession
    refine ⟨hsession, hnotices, fun m₁ m₂ hgoes hdue => ?_⟩
    rw [Watch.run_first_tick v s m₁ m₂ hgoes hdue]
    have htells := Watch.tick_tells v (s.meet m₁) m₂
    simpa [hsession] using htells

/-- A daemon has gone on purpose. After a call that fails nothing is held, and the next watch finds
nothing to watch. -/
theorem failed_call_blank :
    let v : Supervisor Rehearsal.World := ⟨Rehearsal.World.surroundings, {}⟩
    let before : Rehearsal.World := { record := some { port := 1, pid := 100 }, alive := [100] }
    let after : Rehearsal.World := { binary := none }
    let moves : List (Move Rehearsal.World) := [.call, .turn 0 { world := before }, .watch,
      .turn 1 { world := before }, .turn 1 { world := after, elapsed := 2_000_000_000 }, .call]
    let c := Crew.run v (.fresh before) moves
    let m : Moment Rehearsal.World := { world := after }
    let s := (Crew.step v c (.turn 2 m)).state
    let w := Watch.run v (.called, s) [m, { m with elapsed := 2_000_000_000 }]
    c.Fails v 2 m (.daemonNotFound "watchfired") ∧ c.state.session.phase = .shuttingDown ∧
      s.session = {} ∧ w.1 = .ended .notRunning ∧ w.2.notices = s.notices := by
  intro v before after moves c m s w
  have hfails : c.Fails v 2 m (.daemonNotFound "watchfired") :=
    ⟨.called, .done 2_000_000_000 (.error (.daemonNotFound "watchfired")), by cbv, rfl, by cbv, rfl⟩
  have hheld : holding c.state.deeds = {} := by decide
  obtain ⟨hsession, -, hwatch⟩ := (idle_forgets_iff v before moves).2.2 2 m _ hfails
  obtain ⟨hexit, hquiet⟩ := hwatch m { m with elapsed := 2_000_000_000 } rfl (by decide)
  rw [hheld] at hsession hexit hquiet
  have hphase : c.state.session.phase = .shuttingDown := by decide
  exact ⟨hfails, hphase, by rw [hsession], hexit.mpr rfl, hquiet.mpr (by simp)⟩

/-- A daemon 100 has ended, and a call that finds no executable fails. The session is idle but
still goes by 100, and the next watch reports its crash. -/
theorem failed_call_watched :
    let v : Supervisor Rehearsal.World := ⟨Rehearsal.World.surroundings, {}⟩
    let r : Record := { port := 1, pid := 100 }
    let before : Rehearsal.World := { record := some r, alive := [100] }
    let after : Rehearsal.World := { record := some r, binary := none }
    let c := Crew.run v (.fresh before)
      [.call, .turn 0 { world := before }, .call, .turn 1 { world := after }]
    let w := Watch.run v (.called, c.state)
      [{ world := after }, { world := after, elapsed := 2_000_000_000 }]
    c.state.session = ⟨some r, some 100, .idle⟩ ∧ w.1 ≠ .ended .notRunning ∧
      (2_000_000_000, .crashed 100) ∈ w.2.notices := by
  decide

end Vigil.Daemon
