import Vigil.Proofs.Daemon.Crew
import Vigil.Rehearsal.World

/-! What a session says about its daemon fits together, whoever wrote it and whenever it was read:
the watched process is the one on record, and the phase tells whether there is one. -/
namespace Vigil.Daemon

variable {σ : Type}

namespace Session

structure Sound (session : Session) : Prop where
  onRecord : ∀ pid, session.watchedPid = some pid → ∃ r, session.record = some r ∧ r.pid = pid
  watched : session.phase = .running → session.watchedPid.isSome = true
  unwatched : session.phase = .restarting ∨ session.phase = .shuttingDown →
    session.watchedPid = none
  forgotten : session.phase = .shuttingDown → session.record = none

theorem Sound.blank : Sound {} := by
  constructor <;> simp

theorem Sound.down : Sound down := by
  constructor <;> simp [Session.down]

theorem Sound.serving (r : Record) : Sound (serving r) := by
  constructor <;> simp [Session.serving]

/-- A call or a search that changes nothing but the phase. -/
theorem Sound.setPhase {session : Session} (h : session.Sound) {phase : Phase}
    (hphase : phase = .starting ∨ phase = .idle) : Sound { session with phase } := by
  rcases hphase with rfl | rfl <;> exact ⟨h.onRecord, by simp, by simp, by simp⟩

/-- A crash leaves the record and nobody to watch. -/
theorem Sound.crashed (session : Session) :
    Sound { session with phase := .restarting, watchedPid := none } := by
  constructor <;> simp

end Session

/-- The session that a deed writes, if it does. -/
def Deed.written : Deed → Option Session
  | .write session => some session
  | _ => none

/-- The session that was written last; at first there is a blank one. -/
def lastWritten (deeds : List Deed) : Session :=
  deeds.foldl (fun last d => d.written.getD last) {}

@[simp] theorem lastWritten_concat (deeds : List Deed) (d : Deed) :
    lastWritten (deeds ++ [d]) = d.written.getD (lastWritten deeds) := by
  simp [lastWritten, List.foldl_append]

/-- A daemon is served only by a session that names the record just found, all of it. -/
def Fetched : List Deed → Prop :=
  Along fun earlier d => ∀ session, d = .write session → session.phase = .running →
    ∃ before r, earlier = before ++ [.readLive (some r)] ∧ session = .serving r

/-- The session is the one written last, and all that were written are sound. -/
structure Keeping (s : Supervision σ) : Prop where
  last : s.session = lastWritten s.deeds
  sound : s.session.Sound
  writes : ∀ session, .write session ∈ s.deeds → session.Sound
  fetched : Fetched s.deeds

namespace Keeping

variable {v : Supervisor σ} {s s' : Supervision σ}

/-- A deed that writes no session. -/
theorem plain (h : Keeping s) {d : Deed} (hd : d.written = none)
    (hdeeds : s'.deeds = s.deeds ++ [d]) (hsession : s'.session = s.session) : Keeping s' := by
  have hne : ∀ session, d ≠ .write session := by
    rintro session rfl
    cases hd
  refine ⟨?_, hsession ▸ h.sound, ?_, ?_⟩
  · rw [hdeeds, lastWritten_concat, hd, hsession]
    exact h.last
  · intro session hmem
    rw [hdeeds, List.mem_append, List.mem_singleton] at hmem
    exact hmem.elim (h.writes session) fun heq => absurd heq.symm (hne session)
  · rw [hdeeds]
    exact h.fetched.concat fun session heq => absurd heq (hne session)

theorem tell (h : Keeping s) (n : Notice) : Keeping (s.tell n) :=
  h.plain (d := .tell n) rfl (s.tell_deeds n) rfl

theorem write (h : Keeping s) {session : Session} (hsound : session.Sound)
    (hrunning : session.phase = .running →
      ∃ before r, s.deeds = before ++ [.readLive (some r)] ∧ session = .serving r) :
    Keeping (s.write session) := by
  refine ⟨?_, hsound, ?_, ?_⟩
  · rw [s.write_deeds, lastWritten_concat]
    rfl
  · intro session' hmem
    rw [s.write_deeds, List.mem_append, List.mem_singleton] at hmem
    rcases hmem with hmem | heq
    · exact h.writes session' hmem
    · cases heq
      exact hsound
  · rw [s.write_deeds]
    refine h.fetched.concat fun session' heq hphase => ?_
    cases heq
    exact hrunning hphase

theorem routine (hr : Routine v s s') (h : Keeping s) : Keeping s' := by
  cases hr with
  | probe pid => exact h.plain rfl (s.note_deeds _) rfl
  | readLive => exact h.plain rfl (s.note_deeds _) rfl
  | readLeft => exact h.plain rfl (s.note_deeds _) rfl
  | find => exact h.plain rfl (s.note_deeds _) rfl
  | launch path => exact h.plain rfl (Supervision.note_deeds _ _) rfl
  | start => exact h.write (h.sound.setPhase (.inl rfl)) (by simp)
  | serve r n hr hn =>
    obtain ⟨before, hread⟩ := hr.read
    exact (h.write (.serving r) fun _ => ⟨before, r, hread, rfl⟩).tell n
  | fail => exact h.write (h.sound.setPhase (.inr rfl)) (by simp)
  | postpone n e delay => exact h.tell _
  | abandon n => exact (h.write .blank (by simp)).tell _
  | shutdown hleft => exact (h.write .down (by simp [Session.down])).tell _

theorem act (ha : Act v s s') (h : Keeping s) : Keeping s' := by
  cases ha with
  | routine hr => exact h.routine hr
  | crash pid => exact (h.write (.crashed _) (by simp)).tell _

theorem crew (v : Supervisor σ) (world : σ) (moves : List (Move σ)) :
    Keeping (Crew.run v (.fresh world) moves).state := by
  have hmeet : ∀ s (m : Moment σ), Keeping s → Keeping (s.meet m) :=
    fun s m h => ⟨h.last, h.sound, h.writes, h.fetched⟩
  refine Crew.run_invariant hmeet (fun s s' hact h => h.act hact) ?_ moves
  refine ⟨rfl, .blank, fun session hmem => ?_, along_nil _⟩
  simp [Crew.fresh, Supervision.deeds] at hmem

end Keeping

/-- However calls, failed or cancelled ones too, and watches that share a supervisor take turns: its
session is the one written last, and it is sound, like every other one that was written on the way.
A session came to be running only by the record that the look right before it found alive. -/
theorem every_session_sound (v : Supervisor σ) (world : σ) (moves : List (Move σ)) :
    let s := (Crew.run v (.fresh world) moves).state
    s.session = lastWritten s.deeds ∧ s.session.Sound ∧
      (∀ session, .write session ∈ s.deeds → session.Sound) ∧
      ∀ earlier session later, s.deeds = earlier ++ .write session :: later →
        session.phase = .running →
        ∃ before r, earlier = before ++ [.readLive (some r)] ∧ session = .serving r := by
  intro s
  have h : Keeping s := .crew v world moves
  exact ⟨h.last, h.sound, h.writes, fun earlier session later heq hphase =>
    h.fetched earlier _ later heq session rfl hphase⟩

/-- A watch restarts a daemon, a call that fails meanwhile makes the session idle, and then the
watch finds the new daemon. -/
theorem restarted_session_sound :
    let v : Supervisor Rehearsal.World := ⟨Rehearsal.World.surroundings, {}⟩
    let r : Record := { port := 1, pid := 200 }
    let before : Rehearsal.World := { record := some { port := 1, pid := 100 }, alive := [100] }
    let dead : Rehearsal.World := { before with alive := [] }
    let after : Rehearsal.World := { record := some r, alive := [200] }
    let deeds := (Crew.run v (.fresh before) [.call, .turn 0 { world := before }, .watch,
      .turn 1 { world := before }, .turn 1 { world := dead, elapsed := 2_000_000_000 }, .call,
      .turn 2 { world := { dead with binary := none } },
      .turn 1 { world := after, elapsed := 100_000_000 }]).state.deeds
    let earlier := deeds.take 14
    deeds = earlier ++ .write (.serving r) :: [.tell (.restarted r)] ∧
      (Session.serving r).phase = .running ∧
      ∃ before r', earlier = before ++ [.readLive (some r')] ∧ Session.serving r = .serving r' := by
  intro v r before dead after deeds earlier
  have hdeeds : deeds = earlier ++ .write (.serving r) :: [.tell (.restarted r)] := by decide
  have hphase : (Session.serving r).phase = .running := rfl
  exact ⟨hdeeds, hphase, (every_session_sound v before _).2.2.2 earlier _ _ hdeeds hphase⟩

end Vigil.Daemon
