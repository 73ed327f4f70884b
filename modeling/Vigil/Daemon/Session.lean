import Vigil.Daemon.Error
import Vigil.Record.Basic
/-! What a supervisor knows about its daemon, and what it tells others. -/
namespace Vigil.Daemon

inductive Phase where
  | idle | starting | running | restarting | shuttingDown
deriving DecidableEq, Repr

structure Session where
  record : Option Record := none
  watchedPid : Option UInt32 := none
  phase : Phase := .idle
deriving DecidableEq, Repr

/-- A session with a live daemon. -/
def Session.serving (r : Record) : Session := ⟨some r, some r.pid, .running⟩

/-- The session once the daemon has gone on purpose. -/
def Session.down : Session := ⟨none, none, .shuttingDown⟩

inductive Notice where
  | ready (r : Record)
  | crashed (pid : UInt32)
  | restarted (r : Record)
  | restartFailed (attempt : Nat) (error : StartError) (retryIn : Duration)
  | abandoned (attempts : Nat)
  /-- The daemon took its record away before it ended. -/
  | shutdown
deriving DecidableEq

/-- Why nobody watches any more. -/
inductive WatchExit where
  | shutdown | abandoned | cancelled
  /-- There was no daemon to watch. -/
  | notRunning
deriving DecidableEq, Repr

end Vigil.Daemon
