import Vigil.Daemon.Supervision
/-! Watching a daemon, and restarting it when it crashes. -/
namespace Vigil.Daemon

inductive Watch where
  | called
  | ticking (due : Nat)
  /-- A restart after `failures` others that looks for the new record. -/
  | polling (crashed : UInt32) (failures look due : Nat)
  | coolingDown (crashed : UInt32) (failures due : Nat)
  | ended (exit : WatchExit)
deriving DecidableEq, Repr

namespace Watch

variable {σ : Type} (v : Supervisor σ) (s : Supervision σ)

def rest : Watch × Supervision σ := (.ticking (s.now + v.policies.watch.interval.nanos), s)

/-- Goes on with the restart of `crashed` after `failures` failed ones. -/
def follow (crashed : UInt32) (failures : Nat) : Supervisor.Progress → Watch × Supervision σ
  | .found r => rest v ((s.write (.serving r)).tell (.restarted r))
  | .polling look due => (.polling crashed failures look due, s)
  | .failed e =>
    match v.policies.restart.delayAfter (failures + 1) with
    | none => (.ended .abandoned, (s.write {}).tell (.abandoned (failures + 1)))
    | some delay => (.coolingDown crashed (failures + 1) (s.now + delay.nanos),
        s.tell (.restartFailed (failures + 1) e delay))

def shutdown : Watch × Supervision σ := (.ended .shutdown, (s.write .down).tell .shutdown)

def restart (crashed : UInt32) (failures : Nat) : Watch × Supervision σ :=
  let (p, s) := v.begin s
  follow v s crashed failures p

/-- Looks at the daemon. One that ended and took its record with it went on purpose. -/
def tick : Watch × Supervision σ :=
  match s.session.watchedPid with
  | none => (.ended .notRunning, s)
  | some pid =>
    match v.probe s pid with
    | (true, s) => rest v s
    | (false, s) =>
      match v.readLeft s with
      | (none, s) => shutdown s
      | (some _, s) =>
        let s := s.write { s.session with phase := .restarting, watchedPid := none }
        restart v (s.tell (.crashed pid)) pid 0

/-- Tries again, unless the record has been taken away meanwhile. -/
def retry (crashed : UInt32) (failures : Nat) : Watch × Supervision σ :=
  match v.readLeft s with
  | (none, s) => shutdown s
  | (some _, s) => restart v s crashed failures

/-- Whether there is something to do. -/
def isReady (now : Nat) (cancelled : Bool) : Watch → Bool
  | called => true
  | ticking due | polling _ _ _ due | coolingDown _ _ due => cancelled || decide (due ≤ now)
  | ended _ => false

/-- Goes on to the next wait; before it is due only a cancellation ends a wait. -/
def turn (cancelled : Bool) (w : Watch) : Watch × Supervision σ :=
  match w with
  | called => rest v s
  | ended exit => (ended exit, s)
  | ticking due =>
    if cancelled then (ended .cancelled, s) else if due ≤ s.now then tick v s else (w, s)
  | polling crashed failures look due =>
    if cancelled then (ended .cancelled, s)
    else if due ≤ s.now then
      let (p, s) := v.look s look
      follow v s crashed failures p
    else (w, s)
  | coolingDown crashed failures due =>
    if cancelled then (ended .cancelled, s)
    else if due ≤ s.now then retry v s crashed failures
    else (w, s)

/-- When it wants to be woken. -/
def due? : Watch → Option Nat
  | ticking due | polling _ _ _ due | coolingDown _ _ due => some due
  | called | ended _ => none

end Watch

end Vigil.Daemon
