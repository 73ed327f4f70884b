import Vigil.Proofs.Daemon.Idle

/-! A call that has the supervisor to itself: what it comes to and when, and all that it does on the
way. -/
namespace Vigil.Daemon

variable {σ : Type}

namespace Supervision

variable (s : Supervision σ)

/-- Every deed so far with its instant, the oldest first. -/
def timeline : List (Nat × Deed) := s.trail.reverse

@[simp] theorem note_timeline (d : Deed) : (s.note d).timeline = s.timeline ++ [(s.now, d)] := by
  simp [timeline, note]

@[simp] theorem tell_timeline (n : Notice) :
    (s.tell n).timeline = s.timeline ++ [(s.now, .tell n)] := s.note_timeline (.tell n)

@[simp] theorem write_timeline (session : Session) :
    (s.write session).timeline = s.timeline ++ [(s.now, .write session)] :=
  note_timeline _ (.write session)

@[simp] theorem within_timeline (world : σ) : (s.within world).timeline = s.timeline := rfl

@[simp] theorem meet_timeline (m : Moment σ) : (s.meet m).timeline = s.timeline := rfl

end Supervision

/-! ### The beginning of a search -/

namespace Supervisor

variable {v : Supervisor σ} {s : Supervision σ}

/-- What a search does first when no daemon is alive. -/
def opening (session : Session) : List Deed :=
  .readLive none ::
    if session.phase = .restarting then [] else [.write { session with phase := .starting }]

theorem searching_timeline (s : Supervision σ) :
    (searching s).timeline = s.timeline ++ (opening s.session).map (s.now, ·) := by
  unfold searching opening
  by_cases hphase : s.session.phase = .restarting
  · simp [hphase]
  · simp [hphase]

theorem begin_of_live {r : Record} (hlive : v.surroundings.live s.world = some r) :
    v.begin s = (.found r, s.note (.readLive (some r))) := by
  simp [begin, hlive]

theorem begin_of_notFound (hlive : v.surroundings.live s.world = none)
    (hfind : v.surroundings.find s.world = none) :
    v.begin s =
      (.failed (.daemonNotFound v.surroundings.binaryName), (searching s).note (.find none)) := by
  unfold begin searching
  by_cases hphase : s.session.phase = .restarting
  · simp [hlive, hfind, hphase]
  · simp [hlive, hfind, hphase]

theorem begin_of_launch {path : String} {failure : Option String}
    (hlive : v.surroundings.live s.world = none)
    (hfind : v.surroundings.find s.world = some path)
    (hlaunch : (v.surroundings.launch s.world path).2 = failure) :
    v.begin s =
      (match failure with
        | some reason => .failed (.launch path reason)
        | none => v.await s 1,
      (((searching s).note (.find (some path))).within
        (v.surroundings.launch s.world path).1).note (.launch path failure)) := by
  unfold begin searching
  by_cases hphase : s.session.phase = .restarting
  · cases failure <;> simp [hlive, hfind, hphase, hlaunch, await]
  · cases failure <;> simp [hlive, hfind, hphase, hlaunch, await]

end Supervisor

namespace Ensure

/-! ### What a call comes to -/

/-- The session when a call is over: a failure changes the phase alone. -/
def settled (session : Session) : Except StartError Record → Session
  | .ok r => .serving r
  | .error _ => { session with phase := .idle }

/-- The last that a call does: it enters what it came to, and tells of a daemon that is there. -/
def closing (session : Session) (result : Except StartError Record) : List Deed :=
  .write (settled session result) ::
    match result with
    | .ok r => [.tell (.ready r)]
    | .error _ => []

/-- The call that began in `s` was over so long `after`, and until then had done what `did` says
with nothing besides. -/
structure Answered (s : Supervision σ) (after : Nat) (result : Except StartError Record)
    (did : List (Nat × Deed)) (call : Ensure × Supervision σ) : Prop where
  stage : call.1 = .done (s.now + after) result
  session : call.2.session = settled s.session result
  timeline : call.2.timeline =
    s.timeline ++ did ++ (closing s.session result).map (s.now + after, ·)

/-- The call that began in `s` has come to `t`: it has sought so long, has done what `did` says, and
has changed no more than the phase of the session. -/
structure Seeks (s : Supervision σ) (after : Nat) (did : List (Nat × Deed)) (t : Supervision σ) :
    Prop where
  now : t.now = s.now + after
  timeline : t.timeline = s.timeline ++ did
  session : ∃ phase, t.session = { s.session with phase }

namespace Seeks

variable {s t : Supervision σ} {after : Nat} {did : List (Nat × Deed)}

theorem note (h : Seeks s after did t) (d : Deed) :
    Seeks s after (did ++ [(s.now + after, d)]) (t.note d) :=
  ⟨h.now, by simp [h.timeline, h.now], h.session⟩

theorem within (h : Seeks s after did t) (world : σ) : Seeks s after did (t.within world) :=
  ⟨h.now, h.timeline, h.session⟩

theorem found (h : Seeks s after did t) (r : Record) :
    Answered s after (.ok r) did (follow t (.found r)) := by
  refine ⟨?_, rfl, ?_⟩
  · rw [follow, h.now]
  · simp [follow, closing, settled, h.timeline, h.now]

theorem failed (h : Seeks s after did t) (e : StartError) :
    Answered s after (.error e) did (follow t (.failed e)) := by
  obtain ⟨phase, hsession⟩ := h.session
  refine ⟨?_, ?_, ?_⟩
  · rw [follow, h.now]
  · simp [follow, settled, hsession]
  · simp [follow, closing, settled, h.timeline, h.now, hsession]

/-- A search begins at once. -/
theorem searching (s : Supervision σ) (world : σ) :
    Seeks s 0 ((Supervisor.opening s.session).map (s.now, ·))
      (Supervisor.searching (s.meet { world })) := by
  refine ⟨Supervisor.searching_now _, ?_, (Supervisor.searching_quiet (s.meet { world })).2⟩
  rw [Supervisor.searching_timeline]
  rfl

end Seeks

/-! ### A call on its own -/

variable (v : Supervisor σ) (s : Supervision σ) (worlds : Nat → σ)

/-- A call and its supervisor after so many turns, with nobody else about. It has its turn at once,
and then whenever a wait is over; the turn behind `n` others meets the surroundings `worlds n`. -/
def alone : Nat → Ensure × Supervision σ
  | 0 => (.called, s)
  | n + 1 =>
    let (e, s) := alone n
    e.turn v (s.meet { world := worlds n, elapsed := e.due?.getD s.now - s.now }) false

variable {v s worlds}

theorem alone_one :
    alone v s worlds 1 =
      follow (v.begin (s.meet { world := worlds 0 })).2
        (v.begin (s.meet { world := worlds 0 })).1 := by
  simp [alone, turn, due?]

/-- Once it is over nothing more is done. -/
theorem Answered.later {after : Nat} {result : Except StartError Record}
    {did : List (Nat × Deed)} {n n' : Nat} (h : Answered s after result did (alone v s worlds n))
    (hle : n ≤ n') : Answered s after result did (alone v s worlds n') := by
  induction hle with
  | refl => exact h
  | @step k hk ih =>
    have hsame : alone v s worlds (k + 1) =
        ((alone v s worlds k).1, (alone v s worlds k).2.meet { world := worlds k }) := by
      simp [alone, ih.stage, turn, due?]
    rw [hsame]
    exact ⟨ih.stage, ih.session, ih.timeline⟩

/-- The wait before a look is over exactly then. -/
theorem alone_look {t : Supervision σ} {n : Nat}
    (h : alone v s worlds (n + 1) = follow t (v.await t (n + 1)))
    (hn : n < v.policies.start.maxAttempts) :
    let met := t.meet { world := worlds (n + 1), elapsed := v.policies.start.pollInterval.nanos }
    alone v s worlds (n + 2) = follow (v.look met (n + 1)).2 (v.look met (n + 1)).1 := by
  intro met
  have hawait : v.await t (n + 1) =
      .polling (n + 1) (t.now + v.policies.start.pollInterval.nanos) := by
    rw [Supervisor.await, if_neg (Nat.not_lt.mpr hn)]
  rw [hawait] at h
  rw [alone, h]
  simp [follow, turn, due?, met]

/-- Looks in vain, one after each wait. -/
def missed (v : Supervisor σ) (s : Supervision σ) (n : Nat) : List (Nat × Deed) :=
  (List.range n).map fun k =>
    (s.now + (k + 1) * v.policies.start.pollInterval.nanos, .readLive none)

theorem missed_succ (n : Nat) :
    missed v s (n + 1) = missed v s n ++
      [(s.now + (n + 1) * v.policies.start.pollInterval.nanos, .readLive none)] := by
  rw [missed, List.range_succ, List.map_append]
  rfl

theorem Seeks.meet {t : Supervision σ} {n : Nat} {did : List (Nat × Deed)} {interval : Nat}
    (h : Seeks s (n * interval) did t) (world : σ) :
    Seeks s ((n + 1) * interval) did (t.meet { world, elapsed := interval }) := by
  refine ⟨?_, h.timeline, h.session⟩
  rw [Supervision.meet_now, h.now, Nat.succ_mul, Nat.add_assoc]

/-- What is done until the executable has been started. -/
def launched (s : Supervision σ) (path : String) (failure : Option String) : List (Nat × Deed) :=
  (Supervisor.opening s.session ++
    [Deed.find (some path), Deed.launch path failure]).map (s.now, ·)

theorem Seeks.launched (s : Supervision σ) (world world' : σ) (path : String)
    (failure : Option String) :
    Seeks s 0 (launched s path failure)
      ((((Supervisor.searching (s.meet { world })).note (.find (some path))).within world').note
        (.launch path failure)) := by
  have h := (((Seeks.searching s world).note (.find (some path))).within world').note
    (.launch path failure)
  simpa [Ensure.launched] using h

section Launched

variable {path : String} (hlive : v.surroundings.live (worlds 0) = none)
  (hfind : v.surroundings.find (worlds 0) = some path)
  (hlaunch : (v.surroundings.launch (worlds 0) path).2 = none)

include hlive hfind hlaunch

/-- After a launch every look in vain is followed by a wait for the next, while there are any. -/
theorem alone_missed {n : Nat} (hn : n ≤ v.policies.start.maxAttempts)
    (hnone : ∀ k, 1 ≤ k → k ≤ n → v.surroundings.live (worlds k) = none) :
    ∃ t, Seeks s (n * v.policies.start.pollInterval.nanos)
        (launched s path none ++ missed v s n) t ∧
      alone v s worlds (n + 1) = follow t (v.await t (n + 1)) := by
  induction n with
  | zero =>
    have hbegin :=
      Supervisor.begin_of_launch (s := s.meet { world := worlds 0 }) hlive hfind hlaunch
    have hseeks := Seeks.launched s (worlds 0) (v.surroundings.launch (worlds 0) path).1 path none
    refine ⟨_, by simpa [missed] using hseeks, ?_⟩
    rw [alone_one, hbegin]
    exact congrArg (follow _) (v.await_congr (Supervisor.searching_now _).symm 1)
  | succ n ih =>
    obtain ⟨t, hseeks, halone⟩ := ih (by omega) fun k hk hkn => hnone k hk (by omega)
    have hmiss : v.surroundings.live (worlds (n + 1)) = none := hnone (n + 1) (by omega) (by omega)
    have hmet := (hseeks.meet (worlds (n + 1))).note (.readLive none)
    rw [List.append_assoc, ← missed_succ] at hmet
    refine ⟨_, hmet, ?_⟩
    rw [alone_look halone hn]
    simp [Supervisor.look, hmiss]

theorem alone_found {n : Nat} {r : Record} (hn : n < v.policies.start.maxAttempts)
    (hnone : ∀ k, 1 ≤ k → k ≤ n → v.surroundings.live (worlds k) = none)
    (hr : v.surroundings.live (worlds (n + 1)) = some r) :
    let after := (n + 1) * v.policies.start.pollInterval.nanos
    Answered s after (.ok r)
      (launched s path none ++ missed v s n ++ [(s.now + after, .readLive (some r))])
      (alone v s worlds (n + 2)) := by
  intro after
  obtain ⟨t, hseeks, halone⟩ := alone_missed (s := s) hlive hfind hlaunch (Nat.le_of_lt hn) hnone
  have hmet := (hseeks.meet (worlds (n + 1))).note (.readLive (some r))
  rw [alone_look halone hn]
  simpa [Supervisor.look, hr] using hmet.found r

theorem alone_timedOut (hnone : ∀ k, 1 ≤ k → k ≤ v.policies.start.maxAttempts →
      v.surroundings.live (worlds k) = none) :
    Answered s (v.policies.start.maxAttempts * v.policies.start.pollInterval.nanos)
      (.error (.startTimeout v.policies.start.budget))
      (launched s path none ++ missed v s v.policies.start.maxAttempts)
      (alone v s worlds (v.policies.start.maxAttempts + 1)) := by
  obtain ⟨t, hseeks, halone⟩ := alone_missed (s := s) hlive hfind hlaunch (Nat.le_refl _) hnone
  rw [halone, Supervisor.await, if_pos (Nat.lt_succ_self _)]
  exact hseeks.failed _

end Launched

theorem budget_nanos {p : StartPolicy}
    (h : p.maxAttempts * p.pollInterval.nanos ≤ Duration.largest) :
    p.budget.nanos = p.maxAttempts * p.pollInterval.nanos := by
  rw [Nat.mul_comm] at h ⊢
  exact Nat.min_eq_left h

/-- A call that has the supervisor to itself, whatever its session was, is over within its looks.
A daemon that is alive it takes at once, and nothing else is asked. Otherwise it fails at once if
there is no executable or it does not start; if it does, it is started once, and the call takes the
first daemon that it finds alive at one of its looks, at exactly that look, or fails behind the
last. A daemon that was taken is the session's and told of once; a failure leaves the session idle
and tells nobody. -/
theorem call_comes_to (v : Supervisor σ) (s : Supervision σ) (worlds : Nat → σ) {turns : Nat}
    (hturns : v.policies.start.maxAttempts < turns) :
    let looks := v.policies.start.maxAttempts
    let interval := v.policies.start.pollInterval.nanos
    let live (n : Nat) := v.surroundings.live (worlds n)
    let find := v.surroundings.find (worlds 0)
    let launch (path : String) := (v.surroundings.launch (worlds 0) path).2
    let call := alone v s worlds turns
    (∀ r, live 0 = some r → Answered s 0 (.ok r) [(s.now, .readLive (some r))] call) ∧
    (live 0 = none → find = none →
      Answered s 0 (.error (.daemonNotFound v.surroundings.binaryName))
        ((Supervisor.opening s.session ++ [Deed.find none]).map (s.now, ·)) call) ∧
    (∀ path reason, live 0 = none → find = some path → launch path = some reason →
      Answered s 0 (.error (.launch path reason)) (launched s path (some reason)) call) ∧
    (∀ path, live 0 = none → find = some path → launch path = none →
      (∀ n r, n < looks → (∀ k, 1 ≤ k → k ≤ n → live k = none) → live (n + 1) = some r →
        Answered s ((n + 1) * interval) (.ok r)
          (launched s path none ++ missed v s n ++
            [(s.now + (n + 1) * interval, .readLive (some r))]) call) ∧
      ((∀ k, 1 ≤ k → k ≤ looks → live k = none) →
        Answered s (looks * interval) (.error (.startTimeout v.policies.start.budget))
          (launched s path none ++ missed v s looks) call)) ∧
    (looks * interval ≤ Duration.largest →
      v.policies.start.budget.nanos = looks * interval) := by
  intro looks interval live find launch call
  have hfirst : 1 ≤ turns := Nat.lt_of_le_of_lt (Nat.zero_le _) hturns
  refine ⟨?_, ?_, ?_, ?_, budget_nanos⟩
  · intro r hr
    have hover : Answered s 0 (.ok r) [(s.now, .readLive (some r))] (alone v s worlds 1) := by
      have hseeks : Seeks s 0 [] (s.meet { world := worlds 0 }) :=
        ⟨rfl, by simp, s.session.phase, rfl⟩
      rw [alone_one, Supervisor.begin_of_live hr]
      exact (hseeks.note (.readLive (some r))).found r
    exact hover.later hfirst
  · intro hlive hfind
    have hover : Answered s 0 (.error (.daemonNotFound v.surroundings.binaryName))
        ((Supervisor.opening s.session ++ [Deed.find none]).map (s.now, ·))
        (alone v s worlds 1) := by
      have hseeks := (Seeks.searching s (worlds 0)).note (.find none)
      rw [alone_one, Supervisor.begin_of_notFound hlive hfind]
      simpa using hseeks.failed (.daemonNotFound v.surroundings.binaryName)
    exact hover.later hfirst
  · intro path reason hlive hfind hlaunch
    have hover : Answered s 0 (.error (.launch path reason)) (launched s path (some reason))
        (alone v s worlds 1) := by
      rw [alone_one, Supervisor.begin_of_launch hlive hfind hlaunch]
      exact (Seeks.launched s (worlds 0) _ path (some reason)).failed (.launch path reason)
    exact hover.later hfirst
  · intro path hlive hfind hlaunch
    refine ⟨fun n r hn hnone hr => ?_, fun hnone => ?_⟩
    · exact (alone_found hlive hfind hlaunch hn hnone hr).later (by omega)
    · exact (alone_timedOut hlive hfind hlaunch hnone).later hturns

/-- A restart is under way elsewhere when the call begins; the second of its three looks finds the
daemon that it has launched. -/
theorem second_look_finds :
    let r : Record := { port := 1, pid := 100 }
    let worlds (n : Nat) : Rehearsal.World :=
      if n = 2 then { record := some r, alive := [100] } else {}
    let v : Supervisor Rehearsal.World :=
      ⟨Rehearsal.World.surroundings, { start := { maxAttempts := 3 } }⟩
    let s : Supervision Rehearsal.World :=
      { world := {}, now := 5, session := ⟨some r, none, .restarting⟩ }
    v.policies.start.maxAttempts < 4 ∧
      Answered s 200_000_000 (.ok r)
        [(5, .readLive none), (5, .find (some "/opt/watchfired")),
          (5, .launch "/opt/watchfired" none), (100_000_005, .readLive none),
          (200_000_005, .readLive (some r))] (alone v s worlds 4) := by
  intro r worlds v s
  have hturns : v.policies.start.maxAttempts < 4 := by decide
  obtain ⟨-, -, -, hlaunched, -⟩ := call_comes_to v s worlds hturns
  have hmissed : ∀ k, 1 ≤ k → k ≤ 1 → v.surroundings.live (worlds k) = none := by
    intro k hk hk'
    obtain rfl : k = 1 := by omega
    rfl
  have hfound := (hlaunched "/opt/watchfired" rfl rfl rfl).1 1 r (by decide) hmissed (by decide)
  have hinterval : v.policies.start.pollInterval.nanos = 100_000_000 := by decide
  have hmissed' : missed v s 1 = [(100_000_005, .readLive none)] := by decide
  have hlook : s.now + (1 + 1) * 100_000_000 = 200_000_005 := by decide
  rw [hinterval, hmissed', hlook] at hfound
  exact ⟨hturns, hfound⟩

end Ensure

end Vigil.Daemon
