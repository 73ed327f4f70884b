import Vigil.Link.State
import Vigil.Streams.Basic
/-! What background tasks hand to the one that draws. -/
namespace Vigil.Shell

/-- What stands over the projects' views. -/
inductive Overlay where
  | connecting
  | none
  | reconnecting
  /-- The daemon went down on purpose; nothing comes after this. -/
  | shutDown
deriving DecidableEq, Repr

namespace Overlay

def derive (state : Link.State) (shutdownSeen : Bool) : Overlay :=
  if shutdownSeen then shutDown
  else match state with
    | .never => connecting
    | .connected => none
    | .lost => reconnecting

def banner : Overlay → String
  | connecting => "connecting to daemon..."
  | none => "connected"
  | reconnecting => "connection lost, reconnecting..."
  | shutDown => "daemon shut down, exiting"

end Overlay

inductive Event where
  | overlay (overlay : Overlay)
  | stream (project : String) (event : StreamEvent)
  | ended (project : String) (kind : StreamKind) (detail : String)
  | log (line : String)
deriving DecidableEq, Repr

namespace Event

/-- The project whose screen the event draws. -/
def screenOf? : Event → Option String
  | stream project (.screen _) => some project
  | _ => none

def isLog : Event → Bool
  | log _ => true
  | _ => false

/-- The project the event is about. -/
def project? : Event → Option String
  | stream project _ => some project
  | ended project _ _ => some project
  | overlay _ | log _ => none

/-- The overlay that the event brings. -/
def overlay? : Event → Option Overlay
  | overlay o => some o
  | stream .. | ended .. | log _ => none

end Event

end Vigil.Shell
