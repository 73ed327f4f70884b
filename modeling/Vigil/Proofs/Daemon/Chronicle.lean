import Vigil.Proofs.Daemon.Adoption
import Vigil.Rehearsal.World

/-! The course of a watch: crashes that end in a restart, and then one of a few endings that goes
with how the watch came out. -/
namespace Vigil.Daemon

variable {σ : Type}

/-- Whether a deed counts in the course of a watch: what was left is asked for, a daemon is
launched, or a notice goes out. -/
@[simp] def Deed.isMilestone : Deed → Bool
  | .readLeft _ | .launch .. | .tell _ => true
  | _ => false

def Supervision.milestones (s : Supervision σ) : List Deed := s.deeds.filter Deed.isMilestone

namespace Supervision

variable (s : Supervision σ)

@[simp] theorem note_milestones (d : Deed) :
    (s.note d).milestones = s.milestones ++ if d.isMilestone then [d] else [] := by
  simp [milestones, List.filter_cons]

@[simp] theorem tell_milestones (n : Notice) :
    (s.tell n).milestones = s.milestones ++ [.tell n] := s.note_milestones (.tell n)

@[simp] theorem write_milestones (session : Session) :
    (s.write session).milestones = s.milestones := by
  simp [milestones]

@[simp] theorem within_milestones (world : σ) : (s.within world).milestones = s.milestones := rfl

end Supervision

/-- An attempt at a restart launches one daemon at most. -/
inductive Attempt : List Deed → Prop where
  | quiet : Attempt []
  | launching (path : String) (failure : Option String) : Attempt [.launch path failure]

/-- So many failed attempts in a row. After the cool-down of each the record was still there. -/
inductive Failures : Nat → List Deed → Prop where
  | none : Failures 0 []
  | more {k : Nat} {fs a : List Deed} (hfs : Failures k fs) (ha : Attempt a) (e : StartError)
      (delay : Duration) (left : Record) :
      Failures (k + 1)
        (fs ++ a ++ [.tell (.restartFailed (k + 1) e delay), .readLeft (some left)])

/-- A crash, failed attempts and the attempt behind them. -/
inductive Crash (pid : UInt32) : Nat → List Deed → Prop where
  | intro {k : Nat} {fs a : List Deed} (left : Record) (hfs : Failures k fs) (ha : Attempt a) :
      Crash pid k ([.readLeft (some left), .tell (.crashed pid)] ++ fs ++ a)

/-- Crashes that ended in a restart, from the pid that was watched first to the one watched now. -/
inductive Episodes (start : Option UInt32) : Option UInt32 → List Deed → Prop where
  | none : Episodes start start []
  | more {pid : UInt32} {k : Nat} {es c : List Deed} (hes : Episodes start (some pid) es)
      (hc : Crash pid k c) (r : Record) :
      Episodes start (some r.pid) (es ++ (c ++ [.tell (.restarted r)]))

/-- What comes behind the last restart, by how far the watch of a pid is. -/
inductive Ending : Option UInt32 → Watch → List Deed → Prop where
  | called {watched : Option UInt32} : Ending watched .called []
  | ticking {watched : Option UInt32} {due : Nat} : Ending watched (.ticking due) []
  | polling {pid : UInt32} {k look due : Nat} {c : List Deed} (hc : Crash pid k c) :
      Ending (some pid) (.polling pid k look due) c
  | coolingDown {pid : UInt32} {k due : Nat} {c : List Deed} (hc : Crash pid k c) (e : StartError)
      (delay : Duration) :
      Ending (some pid) (.coolingDown pid (k + 1) due)
        (c ++ [.tell (.restartFailed (k + 1) e delay)])
  | notRunning : Ending none (.ended .notRunning) []
  | cancelledCalm {watched : Option UInt32} : Ending watched (.ended .cancelled) []
  | cancelledPolling {pid : UInt32} {k : Nat} {c : List Deed} (hc : Crash pid k c) :
      Ending (some pid) (.ended .cancelled) c
  | cancelledCoolingDown {pid : UInt32} {k : Nat} {c : List Deed} (hc : Crash pid k c)
      (e : StartError) (delay : Duration) :
      Ending (some pid) (.ended .cancelled) (c ++ [.tell (.restartFailed (k + 1) e delay)])
  | shutdown {pid : UInt32} :
      Ending (some pid) (.ended .shutdown) [.readLeft none, .tell .shutdown]
  | shutdownLate {pid : UInt32} {k : Nat} {c : List Deed} (hc : Crash pid k c) (e : StartError)
      (delay : Duration) :
      Ending (some pid) (.ended .shutdown)
        (c ++ [.tell (.restartFailed (k + 1) e delay), .readLeft none, .tell .shutdown])
  | abandoned {pid : UInt32} {k : Nat} {c : List Deed} (hc : Crash pid k c) :
      Ending (some pid) (.ended .abandoned) (c ++ [.tell (.abandoned (k + 1))])

/-- A watch that is told to stop while it waits. -/
theorem Ending.stopped {watched : Option UInt32} {w : Watch} {ending : List Deed} {due : Nat}
    (h : Ending watched w ending) (hdue : w.due? = some due) :
    Ending watched (.ended .cancelled) ending := by
  cases h with
  | ticking => exact .cancelledCalm
  | polling hc => exact .cancelledPolling hc
  | coolingDown hc e delay => exact .cancelledCoolingDown hc e delay
  | _ => cases hdue

namespace Watch

variable (v : Supervisor σ) (s : Supervision σ)

/-- The turns of a watch that nobody else disturbs. -/
def run (v : Supervisor σ) : Watch × Supervision σ → List (Moment σ) → Watch × Supervision σ
  | p, [] => p
  | (w, s), m :: rest => run v (w.turn v (s.meet m) m.cancelled) rest

def isResting : Watch → Bool
  | called | ticking _ => true
  | _ => false

/-- What a watch has done since `base` is a course that goes with its stage, and at rest it looks
after the pid that the session names. -/
def Tells (start : Option UInt32) (base : List Deed) (p : Watch × Supervision σ) : Prop :=
  ∃ watched es ending, p.2.milestones = base ++ (es ++ ending) ∧ Episodes start watched es ∧
    Ending watched p.1 ending ∧ (p.1.isResting = true → p.2.session.watchedPid = watched)

variable {v s} {start : Option UInt32} {base : List Deed}

theorem searching_milestones (s : Supervision σ) :
    (Supervisor.searching s).milestones = s.milestones := by
  unfold Supervisor.searching
  split <;> simp

theorem begin_milestones (v : Supervisor σ) (s : Supervision σ) :
    ∃ a, Attempt a ∧ (v.begin s).2.milestones = s.milestones ++ a := by
  have hb := v.begun s
  generalize (v.begin s).1 = p, (v.begin s).2 = s' at hb
  cases hb with
  | found r => exact ⟨[], .quiet, by simp⟩
  | notFound => exact ⟨[], .quiet, by simp [searching_milestones]⟩
  | refused path world reason =>
    exact ⟨_, .launching path (some reason), by simp [searching_milestones]⟩
  | launched path world => exact ⟨_, .launching path none, by simp [searching_milestones]⟩

theorem look_milestones (v : Supervisor σ) (s : Supervision σ) (n : Nat) :
    (v.look s n).2.milestones = s.milestones := by
  have hl := v.looked s n
  generalize (v.look s n).1 = p, (v.look s n).2 = s' at hl
  cases hl with
  | found r => simp
  | missing => simp

theorem Tells.rest {es : List Deed} (hms : s.milestones = base ++ es)
    (hes : Episodes start s.session.watchedPid es) : Tells start base (rest v s) :=
  ⟨s.session.watchedPid, es, [], by simpa [Watch.rest] using hms, hes, .ticking, fun _ => rfl⟩

/-- An attempt comes out as a restart, another look, a cool-down or the end of all attempts. -/
theorem Tells.follow {pid : UInt32} {k : Nat} {es c : List Deed}
    (hms : s.milestones = base ++ (es ++ c)) (hes : Episodes start (some pid) es)
    (hc : Crash pid k c) (p : Supervisor.Progress) : Tells start base (follow v s pid k p) := by
  cases p with
  | found r =>
    refine Tells.rest ?_ (hes.more hc r)
    simp [hms]
  | polling look due =>
    exact ⟨some pid, es, c, hms, hes, .polling hc, fun h => by simp [Watch.follow, isResting] at h⟩
  | failed e =>
    unfold Watch.follow
    cases hd : v.policies.restart.delayAfter (k + 1) with
    | none =>
      refine ⟨some pid, es, _, ?_, hes, .abandoned hc, fun h => by simp [isResting] at h⟩
      simp [hms]
    | some delay =>
      refine ⟨some pid, es, _, ?_, hes, .coolingDown hc e delay, fun h => by simp [isResting] at h⟩
      simp [hms]

theorem Tells.restart {pid : UInt32} {k : Nat} {es fs : List Deed} (left : Record)
    (hms : s.milestones = base ++ (es ++ ([.readLeft (some left), .tell (.crashed pid)] ++ fs)))
    (hes : Episodes start (some pid) es) (hfs : Failures k fs) :
    Tells start base (restart v s pid k) := by
  obtain ⟨a, ha, hbegin⟩ := begin_milestones v s
  have hopen : (v.begin s).2.milestones =
      base ++ (es ++ ([.readLeft (some left), .tell (.crashed pid)] ++ fs ++ a)) := by
    rw [hbegin, hms]
    simp
  exact Tells.follow hopen hes (.intro left hfs ha) _

theorem Tells.turn {w : Watch} (h : Tells start base (w, s)) (cancelled : Bool) :
    Tells start base (w.turn v s cancelled) := by
  have ht := w.turned v s cancelled
  generalize w.turn v s cancelled = p at ht ⊢
  obtain ⟨watched, es, ending, hms, hes, hend, hrest⟩ := id h
  have hms : s.milestones = base ++ (es ++ ending) := hms
  cases ht with
  | called =>
    cases hend
    have hpid : s.session.watchedPid = watched := hrest rfl
    exact Tells.rest (by simpa using hms) (hpid ▸ hes)
  | ended => exact h
  | early => exact h
  | stopped hdue => exact ⟨watched, es, ending, hms, hes, hend.stopped hdue, fun h => by cases h⟩
  | notRunning hdue hpid =>
    cases hend
    have hnone : watched = none := (hrest rfl).symm.trans hpid
    subst hnone
    exact ⟨none, es, [], hms, hes, .notRunning, fun h => by cases h⟩
  | alive hdue pid hpid halive =>
    cases hend
    have hpid : s.session.watchedPid = watched := hrest rfl
    exact Tells.rest (by simpa using hms) (hpid ▸ hes)
  | gone hdue pid hpid hdead hleft =>
    cases hend
    have hsome : watched = some pid := (hrest rfl).symm.trans hpid
    subst hsome
    refine ⟨some pid, es, _, ?_, hes, .shutdown, fun h => by cases h⟩
    simp [shutdown, hms]
  | @crashed _ pid left hr =>
    obtain ⟨due, rfl, -⟩ := hr.ticking
    cases hend
    have hsome : watched = some pid := (hrest rfl).symm.trans hr.watched
    subst hsome
    refine Tells.restart left ?_ hes .none
    simp [Supervision.sawCrash, Supervision.reportCrash, hms]
  | looked pid k look =>
    cases hend with
    | polling hc => exact Tells.follow ((look_milestones v s look).trans hms) hes hc _
  | goneMeanwhile pid k hdue hleft =>
    cases hend with
    | coolingDown hc e delay =>
      refine ⟨some pid, es, _, ?_, hes, .shutdownLate hc e delay, fun h => by cases h⟩
      simp [shutdown, hms]
  | retried pid k hdue found hleft =>
    cases hend with
    | @coolingDown _ k _ c hc e delay =>
      cases hc with
      | @intro fs a left hfs ha =>
        refine Tells.restart left ?_ hes (hfs.more ha e delay found)
        simp [hms]

theorem Tells.run {p : Watch × Supervision σ} (h : Tells start base p) (moments : List (Moment σ)) :
    Tells start base (Watch.run v p moments) := by
  induction moments generalizing p with
  | nil => exact h
  | cons m rest ih =>
    obtain ⟨w, s⟩ := p
    have hmeet : Tells start base (w, s.meet m) := h
    exact ih (hmeet.turn m.cancelled)

/-- A watch that is called has all of its course before it. -/
theorem tells_called (s : Supervision σ) :
    Tells s.session.watchedPid s.milestones (.called, s) :=
  ⟨_, [], [], by simp, .none, .called, fun _ => rfl⟩

theorem run_adopting {v : Supervisor σ} {p : Watch × Supervision σ} (h : Adopting p.2)
    (moments : List (Moment σ)) : Adopting (run v p moments).2 := by
  induction moments generalizing p with
  | nil => exact h
  | cons m rest ih =>
    obtain ⟨w, s⟩ := p
    exact ih ((h.meet m).acts (Acts.watchTurn v (s.meet m) m.cancelled w))

end Watch

/-! ### Shutdowns -/

/-- Neither a shutdown nor what leads to one. -/
def Deed.IsCalm (d : Deed) : Prop := d ≠ .readLeft none ∧ d ≠ .tell .shutdown

theorem Attempt.calm {a : List Deed} (h : Attempt a) : ∀ d ∈ a, d.IsCalm := by
  cases h <;> simp [Deed.IsCalm]

theorem Failures.calm {k : Nat} {fs : List Deed} (h : Failures k fs) : ∀ d ∈ fs, d.IsCalm := by
  induction h with
  | none => simp
  | @more k _ _ hfs ha e delay left ih =>
    have hpair : ∀ d ∈ [Deed.tell (.restartFailed (k + 1) e delay), .readLeft (some left)],
        d.IsCalm := by
      simp [Deed.IsCalm]
    exact List.forall_mem_append.mpr ⟨List.forall_mem_append.mpr ⟨ih, ha.calm⟩, hpair⟩

theorem Crash.calm {pid : UInt32} {k : Nat} {c : List Deed} (h : Crash pid k c) :
    ∀ d ∈ c, d.IsCalm := by
  cases h with
  | intro left hfs ha =>
    have hpair : ∀ d ∈ [Deed.readLeft (some left), .tell (.crashed pid)], d.IsCalm := by
      simp [Deed.IsCalm]
    exact List.forall_mem_append.mpr ⟨List.forall_mem_append.mpr ⟨hpair, hfs.calm⟩, ha.calm⟩

theorem Episodes.calm {start watched : Option UInt32} {es : List Deed}
    (h : Episodes start watched es) : ∀ d ∈ es, d.IsCalm := by
  induction h with
  | none => simp
  | more hes hc r ih =>
    have hlast : ∀ d ∈ [Deed.tell (.restarted r)], d.IsCalm := by simp [Deed.IsCalm]
    exact List.forall_mem_append.mpr ⟨ih, List.forall_mem_append.mpr ⟨hc.calm, hlast⟩⟩

/-- A watch ends in a shutdown exactly if it found that nothing was left, as its last deeds. -/
theorem Ending.calm_or_shutdown {watched : Option UInt32} {w : Watch} {ending : List Deed}
    (h : Ending watched w ending) :
    (w ≠ .ended .shutdown ∧ ∀ d ∈ ending, d.IsCalm) ∨
      (w = .ended .shutdown ∧ ∃ calm, ending = calm ++ [.readLeft none, .tell .shutdown] ∧
        ∀ d ∈ calm, d.IsCalm) := by
  have hfailed {pid : UInt32} {k : Nat} {c : List Deed} (hc : Crash pid k c) (e : StartError)
      (delay : Duration) : ∀ d ∈ c ++ [.tell (.restartFailed (k + 1) e delay)], d.IsCalm := by
    have hlast : ∀ d ∈ [Deed.tell (.restartFailed (k + 1) e delay)], d.IsCalm := by
      simp [Deed.IsCalm]
    exact List.forall_mem_append.mpr ⟨hc.calm, hlast⟩
  cases h with
  | called => exact .inl ⟨by simp, by simp⟩
  | ticking => exact .inl ⟨by simp, by simp⟩
  | polling hc => exact .inl ⟨by simp, hc.calm⟩
  | coolingDown hc e delay => exact .inl ⟨by simp, hfailed hc e delay⟩
  | notRunning => exact .inl ⟨by simp, by simp⟩
  | cancelledCalm => exact .inl ⟨by simp, by simp⟩
  | cancelledPolling hc => exact .inl ⟨by simp, hc.calm⟩
  | cancelledCoolingDown hc e delay => exact .inl ⟨by simp, hfailed hc e delay⟩
  | shutdown => exact .inr ⟨rfl, [], rfl, by simp⟩
  | shutdownLate hc e delay => exact .inr ⟨rfl, _, by simp, hfailed hc e delay⟩
  | @abandoned _ k _ hc =>
    have hlast : ∀ d ∈ [Deed.tell (.abandoned (k + 1))], d.IsCalm := by simp [Deed.IsCalm]
    exact .inl ⟨by simp, List.forall_mem_append.mpr ⟨hc.calm, hlast⟩⟩

/-- The course of a watch that is called on a supervisor with any past, in surroundings that
change in any way and with any cancellation, while nobody else uses the supervisor. It is read off
the looks at what was left, the launches and the notices: restarts of crashed daemons, and one of
the endings that go with the stage. Each crash is one of the daemon taken over last, and a shutdown
comes exactly behind a look that found nothing, and last. -/
theorem watch_course (v : Supervisor σ) (world : σ) (past : List (Move σ))
    (moments : List (Moment σ)) :
    let s := (Crew.run v (.fresh world) past).state
    let p := Watch.run v (.called, s) moments
    ∃ course, p.2.milestones = s.milestones ++ course ∧
      (∃ watched es ending, course = es ++ ending ∧
        Episodes s.session.watchedPid watched es ∧ Ending watched p.1 ending) ∧
      CrashesAdopted p.2.deeds ∧
      ((p.1 ≠ .ended .shutdown ∧ ∀ d ∈ course, d.IsCalm) ∨
        (p.1 = .ended .shutdown ∧ ∃ calm, course = calm ++ [.readLeft none, .tell .shutdown] ∧
          ∀ d ∈ calm, d.IsCalm)) := by
  intro s p
  obtain ⟨watched, es, ending, hms, hes, hend, -⟩ := (Watch.tells_called s).run (v := v) moments
  have hadopting : Adopting p.2 := Watch.run_adopting (Adopting.crew v world past) moments
  refine ⟨es ++ ending, hms, ⟨watched, es, ending, rfl, hes, hend⟩, hadopting.crashes, ?_⟩
  rcases hend.calm_or_shutdown with ⟨hw, hcalm⟩ | ⟨hw, calm, rfl, hcalm⟩
  · exact .inl ⟨hw, List.forall_mem_append.mpr ⟨hes.calm, hcalm⟩⟩
  · refine .inr ⟨hw, es ++ calm, by simp, ?_⟩
    exact List.forall_mem_append.mpr ⟨hes.calm, hcalm⟩

/-- A daemon that crashes, and the next one, which goes on purpose. -/
example :
    let v : Supervisor Rehearsal.World := ⟨Rehearsal.World.surroundings, {}⟩
    let r (pid : UInt32) : Record := { port := 1, pid }
    let crashed : Rehearsal.World := { record := some (r 100) }
    let restarted : Rehearsal.World := { record := some (r 200), alive := [200] }
    (Watch.run v (.called, { world := {}, session := .serving (r 100) })
      [{ world := crashed }, { world := crashed, elapsed := 2_000_000_000 },
        { world := restarted, elapsed := 100_000_000 },
        { world := {}, elapsed := 2_000_000_000 }]).2.milestones =
      [.readLeft (some (r 100)), .tell (.crashed 100), .launch "/opt/watchfired" none,
        .tell (.restarted (r 200)), .readLeft none, .tell .shutdown] := by
  decide

end Vigil.Daemon
