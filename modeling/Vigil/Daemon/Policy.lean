import Vigil.Time.Duration
/-! How long the supervisor waits and how often it tries. -/
namespace Vigil.Daemon

/-- After a launch the record is looked for this often, with this long before each look. -/
structure StartPolicy where
  pollInterval : Duration := .ofMillis 100
  maxAttempts : Nat := 50

def StartPolicy.budget (p : StartPolicy) : Duration := p.pollInterval.times p.maxAttempts

/-- How long a watched daemon is left alone between two looks at it. -/
structure WatchPolicy where
  interval : Duration := .ofSecs 2

/-- `maxAttempts` restarts may fail in a row; without it there is no end. -/
structure RestartPolicy where
  cooldown : Duration := .ofSecs 5
  maxCooldown : Duration := .ofSecs 60
  maxAttempts : Option Nat := none

/-- The wait after so many failures in a row grows by a cool-down each time up to a cap; `none`
once the attempts are spent. -/
def RestartPolicy.delayAfter (p : RestartPolicy) (failures : Nat) : Option Duration :=
  if p.maxAttempts.any (· ≤ failures) then none
  else some ((p.cooldown.times (max failures 1)).atMost p.maxCooldown)

structure Policies where
  start : StartPolicy := {}
  watch : WatchPolicy := {}
  restart : RestartPolicy := {}

end Vigil.Daemon
