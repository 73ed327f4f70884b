import Vigil.Proofs.Shell.Moves
import Vigil.Rehearsal.World

/-! The overlays of a run: what is sent follows the connection, and ends with the farewell if the
daemon goes down on purpose. -/
namespace Vigil.Shell

/-- The overlays that a decided end of a run has been shown with. -/
def Stage.farewell (stage : Stage) : List Overlay :=
  if stage.exit? = some .daemonShutdown then [.shutDown] else []

namespace Run

variable {σ : Type} {r r' : Run σ}

/-- What was sent fits where the run stands. While the run is in its loop, either the state that was
sent last is that of the connection, or its change is still to be looked at. -/
structure Shown (r : Run σ) : Prop where
  before : r.stage.served = false →
    r.overlays = [] ∧ r.reconnect.state = .never ∧ r.reconnect.loops = []
  after : r.stage.served = true → ∃ middle : List Overlay,
    (∀ o ∈ middle, o = .none ∨ o = .reconnecting) ∧
      r.overlays = .connecting :: middle ++ r.stage.farewell
  changed : r.stage = .looping → r.stateChanged = true → r.reconnect.state ≠ .never
  settled : r.stage = .looping → r.stateChanged = false →
    r.overlays.getLast? = some (.derive r.reconnect.state false)

namespace Shown

theorem aside (h : Shown r) (ha : Aside r r') : Shown r' := by
  obtain ⟨_, _, _, _, _, rfl, ho⟩ := ha
  refine ⟨?_, ?_, h.changed, ?_⟩
  · rw [ho]
    exact h.before
  · rw [ho]
    exact h.after
  · rw [ho]
    exact h.settled

theorem withReconnect (h : Shown r) {c : Link.Reconnect} (hc : r.reconnect.Follows c) :
    Shown (r.withReconnect c) := by
  refine ⟨fun hstage => ?_, h.after, fun hstage hchanged => ?_, fun hstage hchanged => ?_⟩
  · obtain ⟨hnone, hnever, hloops⟩ := h.before hstage
    have hlength : c.loops.length = 0 := by rw [hc.loops, hloops, List.length_nil]
    have hstate : c.state = r.reconnect.state := by
      refine hc.state.resolve_right fun hbegun => ?_
      exact hbegun.2.elim (fun hne => hne hnever) fun hne => hne hloops
    exact ⟨hnone, hstate.trans hnever, List.length_eq_zero_iff.mp hlength⟩
  · intro hnever
    have hnever : c.state = .never := hnever
    -- A state that is not there yet does not come by a change.
    have hsame : c.state = r.reconnect.state := hc.state.resolve_right fun hne => hne.1 hnever
    have hold : r.stateChanged = true := by
      simpa [Run.withReconnect, hsame] using hchanged
    exact h.changed hstage hold (hsame.symm.trans hnever)
  · obtain ⟨hold, hsame⟩ : r.stateChanged = false ∧ c.state = r.reconnect.state := by
      simpa [Run.withReconnect] using hchanged
    have hlast := h.settled hstage hold
    rw [← hsame] at hlast
    exact hlast

/-- Past its loop a run sends nothing but its farewell. -/
theorem leave (h : Shown r) (hserved : r.stage.served = true) (hserved' : r'.stage.served = true)
    (hstage : r'.stage ≠ .looping) (sent : List Overlay) (hsent : r'.overlays = r.overlays ++ sent)
    (hfarewell : r'.stage.farewell = r.stage.farewell ++ sent) : Shown r' := by
  refine ⟨fun hnot => ?_, fun _ => ?_, fun hloop => absurd hloop hstage,
    fun hloop => absurd hloop hstage⟩
  · exact nomatch hserved'.symm.trans hnot
  · obtain ⟨middle, hmiddle, hold⟩ := h.after hserved
    refine ⟨middle, hmiddle, ?_⟩
    rw [hsent, hold, hfarewell, List.append_assoc]

theorem shown (h : Shown r) (hstage : r.stage = .looping) (hchanged : r.stateChanged = true) :
    Shown ({ r with stateChanged := false }.showState false) := by
  have hsent : ({ r with stateChanged := false }.showState false).overlays =
      r.overlays ++ [.derive r.reconnect.state false] := send_overlays _ _
  have hserved : r.stage.served = true := by
    rw [hstage]
    rfl
  obtain ⟨middle, hmiddle, hold⟩ := h.after hserved
  have hderived : Overlay.derive r.reconnect.state false = .none ∨
      Overlay.derive r.reconnect.state false = .reconnecting := by
    have hne := h.changed hstage hchanged
    cases hstate : r.reconnect.state with
    | never => exact absurd hstate hne
    | connected => exact .inl rfl
    | lost => exact .inr rfl
  refine ⟨fun hnot => (nomatch hserved.symm.trans hnot), fun _ => ?_, nofun, fun _ _ => ?_⟩
  · refine ⟨middle ++ [.derive r.reconnect.state false], fun o ho => ?_, ?_⟩
    · rcases List.mem_append.mp ho with hmem | hmem
      · exact hmiddle o hmem
      · rw [List.mem_singleton.mp hmem]
        exact hderived
    · have hnone : r.stage.farewell = [] := by
        rw [hstage]
        rfl
      have hfarewell : ({ r with stateChanged := false }.showState false).stage.farewell = [] :=
        hnone
      rw [hsent, hold, hnone, hfarewell]
      simp
  · rw [hsent, List.getLast?_concat]
    rfl

theorem serve (h : Shown r) (hserved : r.stage.served = false) {s : Daemon.Supervision σ} :
    Shown { { r.withSupervision s with stateChanged := false }.showState false with
      stage := .looping
      reconnect := r.reconnect.spawn
      watch := some .called } := by
  obtain ⟨hnone, hnever, -⟩ := h.before hserved
  have hsent : ({ r.withSupervision s with stateChanged := false }.showState false).overlays =
      r.overlays ++ [.derive r.reconnect.state false] := send_overlays _ _
  rw [hnone, hnever] at hsent
  refine ⟨nofun, fun _ => ⟨[], nofun, hsent⟩, nofun, fun _ _ => ?_⟩
  refine (congrArg List.getLast? hsent).trans ?_
  change some Overlay.connecting = some (Overlay.derive r.reconnect.state false)
  rw [hnever]
  rfl

theorem stepped (h : Shown r) (hs : Stepped r r') : Shown r' := by
  have hserved {stage : Stage} (hstage : r.stage = stage) (hstill : stage.served = true) :
      r.stage.served = true := hstage ▸ hstill
  have hfarewell {stage : Stage} (hstage : r.stage = stage) : stage.farewell = r.stage.farewell :=
    congrArg Stage.farewell hstage.symm
  cases hs with
  | same => exact h
  | world | passed | watched => exact ⟨h.before, h.after, h.changed, h.settled⟩
  | waits hstage | fails hstage =>
    have hbefore := h.before (by rw [hstage]; rfl)
    exact ⟨fun _ => hbefore, nofun, nofun, nofun⟩
  | serves hstage => exact h.serve (by rw [hstage]; rfl)
  | interruption hstage | abandoned hstage =>
    refine h.leave (hserved hstage rfl) rfl nofun [] (List.append_nil _).symm ?_
    rw [← hfarewell hstage]
    rfl
  | lagged => exact ⟨h.before, h.after, h.changed, h.settled⟩
  | @noticed n notices c hstage ht hn hc =>
    have htaken : Shown { r with notices } := ⟨h.before, h.after, h.changed, h.settled⟩
    exact htaken.withReconnect hc
  | shutdown hstage =>
    refine h.leave (hserved hstage rfl) rfl nofun [.shutDown] (send_overlays _ _) ?_
    rw [← hfarewell hstage]
    rfl
  | shown hstage hchanged => exact h.shown hstage hchanged
  | delayed hstage | exits hstage =>
    refine h.leave (hserved hstage rfl) rfl nofun [] (List.append_nil _).symm ?_
    rw [← hfarewell hstage, List.append_nil]
    rfl
  | linked hc => exact h.withReconnect hc

end Shown

/-- Whatever daemon, connection and streams do, in every order of the tasks and wherever an
interruption comes: once a daemon is there, a run sends that it connects, then any number of times
that it is connected or reconnects, and at the end that the daemon has shut down exactly if that is
why it ends. What is decided stays decided, and nothing is sent behind it. While it is in its loop
and the main task has nothing to do, what was sent last is the connection's state. -/
theorem overlays_of_run (v : Daemon.Supervisor σ) (projects : List String) (exitDelay : Nat)
    (supervision : Daemon.Supervision σ) (interval : Nat) (queue : Queue)
    (moves : List (Move σ)) :
    let r := run (fresh v projects exitDelay supervision interval queue) moves
    (r.stage.served = true → ∃ middle : List Overlay,
      (∀ o ∈ middle, o = .none ∨ o = .reconnecting) ∧
        r.overlays = .connecting :: middle ++
          if r.stage.exit? = some .daemonShutdown then [.shutDown] else []) ∧
    (∀ exit later, r.stage.exit? = some exit →
      (r.run later).stage.exit? = some exit ∧ (r.run later).overlays = r.overlays) ∧
    (r.stage = .looping → r.mainReady = false →
      r.overlays.getLast? = some (.derive r.reconnect.state false)) := by
  intro r
  have hfresh : Shown (fresh v projects exitDelay supervision interval queue) :=
    ⟨fun _ => ⟨rfl, rfl, rfl⟩, nofun, nofun, nofun⟩
  have hshown : Shown r := invariant (fun _ _ h => h.aside) (fun _ _ h => h.stepped)
    (fun _ h => ⟨h.before, h.after, h.changed, h.settled⟩) hfresh moves
  refine ⟨hshown.after, fun exit later hexit => decided_run hexit later, fun hstage hidle => ?_⟩
  have hunchanged : r.stateChanged = false := by
    simp only [mainReady, hstage, Bool.or_eq_false_iff] at hidle
    exact hidle.1.2
  exact hshown.settled hstage hunchanged

/-- A run with a daemon 100 that is there from the first. -/
def attached : Run Rehearsal.World :=
  fresh ⟨Rehearsal.World.surroundings, {}⟩ ["p"] 5
    { world := { record := some { port := 1, pid := 100 }, alive := [100] } } 3 (.ofLimit 8)

/-- The run comes into its loop, is connected, and looks at all there is. -/
def settling : List (Move Rehearsal.World) :=
  [.main .notice, .loop, .acquired (some { port := 1, pid := 100 }), .main .state, .main .notice,
    .watch false]

/-- The daemon shuts down, and the run ends. -/
def leaving : List (Move Rehearsal.World) :=
  [.world {}, .pass 2_000_000_000, .watch false, .main .notice, .pass 5, .main .notice, .loop,
    .main .notice]

theorem leaving_shown :
    let r := run attached settling
    let r' := run attached (settling ++ leaving)
    (r.stage = .looping ∧ r.overlays = [.connecting, .none]) ∧
    (r.mainReady = false ∧ r.overlays.getLast? = some (.derive r.reconnect.state false)) ∧
    (r'.stage.served = true ∧ ∃ middle : List Overlay,
      (∀ o ∈ middle, o = .none ∨ o = .reconnecting) ∧
        r'.overlays = .connecting :: middle ++ [.shutDown]) ∧
    (r'.stage.exit? = some .daemonShutdown ∧
      ∀ later, (r'.run later).overlays = [.connecting, .none, .shutDown]) := by
  intro r r'
  obtain ⟨-, -, hquiet⟩ := overlays_of_run ⟨Rehearsal.World.surroundings, {}⟩ ["p"] 5
    { world := { record := some { port := 1, pid := 100 }, alive := [100] } } 3 (.ofLimit 8) settling
  obtain ⟨hafter, hdecided, -⟩ := overlays_of_run ⟨Rehearsal.World.surroundings, {}⟩ ["p"] 5
    { world := { record := some { port := 1, pid := 100 }, alive := [100] } } 3 (.ofLimit 8)
    (settling ++ leaving)
  have hstage : r.stage = .looping := rfl
  have hidle : r.mainReady = false := by decide
  have hserved : r'.stage.served = true := by decide
  have hexit : r'.stage.exit? = some .daemonShutdown := by decide
  have hsent : r'.overlays = [.connecting, .none, .shutDown] := by decide
  refine ⟨⟨hstage, by decide⟩, ⟨hidle, hquiet hstage hidle⟩, ⟨hserved, ?_⟩, ⟨hexit, fun later => ?_⟩⟩
  · obtain ⟨middle, hmiddle, hshown⟩ := hafter hserved
    exact ⟨middle, hmiddle, hshown.trans (congrArg (Overlay.connecting :: middle ++ ·) (if_pos hexit))⟩
  · exact (hdecided _ later hexit).2.trans hsent

end Run

end Vigil.Shell
