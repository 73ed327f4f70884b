import Vigil.Daemon.Supervision
/-! Making sure that a daemon runs. -/
namespace Vigil.Daemon

inductive Ensure where
  | called
  | polling (look due : Nat)
  /-- The outcome, and when it was there. -/
  | done (at_ : Nat) (result : Except StartError Record)

namespace Ensure

variable {σ : Type}

/-- A failure leaves the rest of the session as it was. -/
def follow (s : Supervision σ) : Supervisor.Progress → Ensure × Supervision σ
  | .found r => (.done s.now (.ok r), (s.write (.serving r)).tell (.ready r))
  | .failed e => (.done s.now (.error e), s.write { s.session with phase := .idle })
  | .polling look due => (.polling look due, s)

/-- Whether there is something to do. -/
def isReady (now : Nat) (cancelled : Bool) : Ensure → Bool
  | called => true
  | polling _ due => cancelled || decide (due ≤ now)
  | done .. => false

/-- Goes on to the next wait; before it is due only a cancellation ends a wait. -/
def turn (v : Supervisor σ) (s : Supervision σ) (cancelled : Bool) : Ensure → Ensure × Supervision σ
  | called =>
    let (p, s) := v.begin s
    follow s p
  | polling look due =>
    if cancelled then follow s (.failed .cancelled)
    else if due ≤ s.now then
      let (p, s) := v.look s look
      follow s p
    else (polling look due, s)
  | done at_ result => (done at_ result, s)

/-- When it wants to be woken. -/
def due? : Ensure → Option Nat
  | polling _ due => some due
  | _ => none

end Ensure

end Vigil.Daemon
