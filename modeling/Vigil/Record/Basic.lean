import Vigil.Text.Blank
import Vigil.Time.Instant
/-! The record a serving daemon leaves behind: where it can be reached and as which process. -/
namespace Vigil

structure Record where
  version : Option UInt32 := none
  host : String := ""
  port : UInt16 := 0
  pid : UInt32 := 0
  startedAt : Option Instant := none
deriving DecidableEq, Repr

/-- The URL of a host and port as they stand. -/
def endpointOf (host : String) (port : UInt16) : String :=
  "http://" ++ host ++ ":" ++ toString port.toNat

namespace Record

/-- The host without the blanks around it; a blank host means this machine. -/
def effectiveHost (r : Record) : String :=
  if Text.isBlank r.host then "localhost" else Text.trimmed r.host

def endpoint (r : Record) : String := endpointOf r.effectiveHost r.port

/-- Without a port or a pid there is nothing to connect to or to watch. -/
def Usable (r : Record) : Prop := r.port ≠ 0 ∧ r.pid ≠ 0

instance (r : Record) : Decidable r.Usable := by unfold Usable; infer_instance

def describe (r : Record) : String :=
  r.effectiveHost ++ ":" ++ toString r.port.toNat ++ " (pid " ++ toString r.pid.toNat ++ ")"

end Record

end Vigil
