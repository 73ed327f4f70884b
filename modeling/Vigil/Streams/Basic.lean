import Vigil.Streams.Status
import Vigil.Wire.Schema
/-! What an agent's streams bring, and how they end. -/
namespace Vigil

inductive StreamKind where
  | screen | issues | rawOutput
deriving DecidableEq, Repr

def StreamKind.name : StreamKind → String
  | screen => "screen"
  | issues => "issues"
  | rawOutput => "raw-output"

inductive StreamEvent where
  | screen (frame : ScreenBuffer)
  /-- `none` says that the issue before it is resolved. -/
  | issue (issue : Option AgentIssue)
  | rawOutput (data : List UInt8)
deriving DecidableEq, Repr

inductive StreamEnd where
  | cancelled
  | completed
  | disconnected (status : Status)
  | failed (status : Status)
deriving DecidableEq, Repr

namespace StreamEnd

/-- A daemon that is away or hung up is a lost connection; any other status is a failure of the
stream itself. -/
def ofStatus (s : Status) : StreamEnd :=
  if s.code = .unavailable ∨ s.code = .cancelled then disconnected s else failed s

def isError : StreamEnd → Bool
  | cancelled | completed => false
  | disconnected _ | failed _ => true

/-- There is nothing to say about an end that was asked for. -/
def detail? : StreamEnd → Option String
  | cancelled => none
  | completed => some "completed"
  | disconnected s => some ("connection lost: " ++ s.message)
  | failed s => some (s.code.name ++ ": " ++ s.message)

end StreamEnd

end Vigil
