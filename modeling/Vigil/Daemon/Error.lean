import Vigil.Time.Duration
/-! Why there is no daemon. -/
namespace Vigil.Daemon

inductive StartError where
  | daemonNotFound (name : String)
  | launch (path reason : String)
  | startTimeout (budget : Duration)
  | cancelled
deriving DecidableEq

namespace StartError

def message : StartError → String
  | daemonNotFound name => "daemon binary `" ++ name ++ "` not found"
  | launch path reason => "failed to launch " ++ path ++ ": " ++ reason
  | startTimeout budget => "daemon did not publish its descriptor within " ++ budget.text
  | cancelled => "supervision cancelled"

/-- Whether somebody has to change the set-up before trying again makes sense. -/
def isConfiguration : StartError → Bool
  | daemonNotFound _ => true
  | _ => false

/-- The failure underneath, if there is one. -/
def cause? : StartError → Option String
  | launch _ reason => some reason
  | _ => none

end StartError

end Vigil.Daemon
