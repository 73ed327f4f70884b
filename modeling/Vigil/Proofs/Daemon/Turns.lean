import Vigil.Proofs.Daemon.Trail

/-! All that a turn of a caller or of a watch can come to. -/
namespace Vigil.Daemon

variable {σ : Type} (v : Supervisor σ) (s : Supervision σ)

namespace Ensure

inductive Turned : Bool → Ensure → Ensure × Supervision σ → Prop where
  | called (cancelled : Bool) : Turned cancelled .called (follow (v.begin s).2 (v.begin s).1)
  | done (cancelled : Bool) (at_ : Nat) (result : Except StartError Record) :
      Turned cancelled (.done at_ result) (.done at_ result, s)
  | stopped (look due : Nat) : Turned true (.polling look due) (follow s (.failed .cancelled))
  | early (look due : Nat) (hdue : s.now < due) :
      Turned false (.polling look due) (.polling look due, s)
  | looked (look due : Nat) (hdue : due ≤ s.now) :
      Turned false (.polling look due) (follow (v.look s look).2 (v.look s look).1)

theorem turned (cancelled : Bool) (e : Ensure) : Turned v s cancelled e (e.turn v s cancelled) := by
  cases e with
  | called => exact .called cancelled
  | done at_ result => exact .done cancelled at_ result
  | polling look due =>
    cases cancelled with
    | true => exact .stopped look due
    | false =>
      unfold turn
      by_cases hdue : due ≤ s.now
      · simpa [hdue] using Turned.looked look due hdue
      · simpa [hdue] using Turned.early look due (Nat.not_le.mp hdue)

end Ensure

namespace Supervision

/-- The state in which a crash is reported. -/
def sawCrash (pid : UInt32) (left : Record) : Supervision σ :=
  (s.note (.probe pid false)).note (.readLeft (some left))

/-- The report of a crash. -/
def reportCrash (pid : UInt32) : Supervision σ :=
  (s.write { s.session with phase := .restarting, watchedPid := none }).tell (.crashed pid)

end Supervision

/-- A watch is due to find that the daemon it watches has ended, and has left a record. -/
structure Watch.Reports (cancelled : Bool) (w : Watch) (pid : UInt32) (left : Record) : Prop where
  ticking : ∃ due, w = .ticking due ∧ due ≤ s.now
  goesOn : cancelled = false
  watched : s.session.watchedPid = some pid
  dead : v.surroundings.isAlive s.world pid = false
  left : v.surroundings.left s.world = some left

namespace Watch

inductive Turned : Bool → Watch → Watch × Supervision σ → Prop where
  | called (cancelled : Bool) : Turned cancelled .called (rest v s)
  | ended (cancelled : Bool) (exit : WatchExit) :
      Turned cancelled (.ended exit) (.ended exit, s)
  | stopped {w : Watch} {due : Nat} (hdue : w.due? = some due) :
      Turned true w (.ended .cancelled, s)
  | early {w : Watch} {due : Nat} (hdue : w.due? = some due) (hnow : s.now < due) :
      Turned false w (w, s)
  | notRunning {due : Nat} (hdue : due ≤ s.now) (hpid : s.session.watchedPid = none) :
      Turned false (.ticking due) (.ended .notRunning, s)
  | alive {due : Nat} (hdue : due ≤ s.now) (pid : UInt32) (hpid : s.session.watchedPid = some pid)
      (halive : v.surroundings.isAlive s.world pid = true) :
      Turned false (.ticking due) (rest v (s.note (.probe pid true)))
  | gone {due : Nat} (hdue : due ≤ s.now) (pid : UInt32) (hpid : s.session.watchedPid = some pid)
      (hdead : v.surroundings.isAlive s.world pid = false)
      (hleft : v.surroundings.left s.world = none) :
      Turned false (.ticking due)
        (shutdown ((s.note (.probe pid false)).note (.readLeft none)))
  | crashed {w : Watch} {pid : UInt32} {left : Record} (h : w.Reports v s false pid left) :
      Turned false w (restart v ((s.sawCrash pid left).reportCrash pid) pid 0)
  | looked (pid : UInt32) (k look : Nat) {due : Nat} (hdue : due ≤ s.now) :
      Turned false (.polling pid k look due)
        (follow v (v.look s look).2 pid k (v.look s look).1)
  | goneMeanwhile (pid : UInt32) (k : Nat) {due : Nat} (hdue : due ≤ s.now)
      (hleft : v.surroundings.left s.world = none) :
      Turned false (.coolingDown pid k due) (shutdown (s.note (.readLeft none)))
  | retried (pid : UInt32) (k : Nat) {due : Nat} (hdue : due ≤ s.now) (left : Record)
      (hleft : v.surroundings.left s.world = some left) :
      Turned false (.coolingDown pid k due)
        (restart v (s.note (.readLeft (some left))) pid k)

theorem tick_turned {due : Nat} (hdue : due ≤ s.now) :
    Turned v s false (.ticking due) (tick v s) := by
  unfold tick
  cases hpid : s.session.watchedPid with
  | none => exact .notRunning hdue hpid
  | some pid =>
    dsimp only [Supervisor.probe_eq]
    cases halive : v.surroundings.isAlive s.world pid with
    | true => exact .alive hdue pid hpid halive
    | false =>
      dsimp only [Supervisor.readLeft_eq, Supervision.note_world]
      cases hleft : v.surroundings.left s.world with
      | none => exact .gone hdue pid hpid halive hleft
      | some left => exact .crashed ⟨⟨due, rfl, hdue⟩, rfl, hpid, halive, hleft⟩

/-- A watch that reports a crash goes on to restart the daemon. -/
theorem turn_of_reports {cancelled : Bool} {w : Watch} {pid : UInt32} {left : Record}
    (h : w.Reports v s cancelled pid left) :
    w.turn v s cancelled = restart v ((s.sawCrash pid left).reportCrash pid) pid 0 := by
  obtain ⟨⟨due, rfl, hdue⟩, rfl, hpid, hdead, hleft⟩ := h
  simp [turn, tick, hdue, hpid, hdead, hleft, Supervision.sawCrash, Supervision.reportCrash]

/-- A watch that has cooled down and still finds a record tries again. -/
theorem turn_of_left {pid : UInt32} {k due : Nat} {left : Record} (hdue : due ≤ s.now)
    (hleft : v.surroundings.left s.world = some left) :
    (coolingDown pid k due).turn v s false = restart v (s.note (.readLeft (some left))) pid k := by
  simp [turn, retry, hdue, hleft]

theorem retry_turned (pid : UInt32) (k : Nat) {due : Nat} (hdue : due ≤ s.now) :
    Turned v s false (.coolingDown pid k due) (retry v s pid k) := by
  unfold retry
  rw [Supervisor.readLeft_eq]
  cases hleft : v.surroundings.left s.world with
  | none => exact .goneMeanwhile pid k hdue hleft
  | some left => exact .retried pid k hdue left hleft

theorem turned (cancelled : Bool) (w : Watch) : Turned v s cancelled w (w.turn v s cancelled) := by
  -- before it is due a wait goes on, and once it is due the wait decides
  have hwait {w : Watch} {due : Nat} {p : Watch × Supervision σ} (hw : w.due? = some due)
      (hp : due ≤ s.now → Turned v s false w p) :
      Turned v s false w (if due ≤ s.now then p else (w, s)) := by
    by_cases hdue : due ≤ s.now
    · rw [if_pos hdue]
      exact hp hdue
    · rw [if_neg hdue]
      exact .early hw (Nat.not_le.mp hdue)
  cases w with
  | called => exact .called cancelled
  | ended exit => exact .ended cancelled exit
  | ticking due =>
    cases cancelled with
    | true => exact .stopped rfl
    | false => exact hwait rfl (tick_turned v s)
  | polling pid k look due =>
    cases cancelled with
    | true => exact .stopped rfl
    | false => exact hwait rfl (.looked pid k look)
  | coolingDown pid k due =>
    cases cancelled with
    | true => exact .stopped rfl
    | false => exact hwait rfl (retry_turned v s pid k)

end Watch

end Vigil.Daemon
