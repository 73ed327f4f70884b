import Vigil.Link.Channel
import Vigil.Streams.Subscriptions
/-! Calls to the daemon over the channel. -/
namespace Vigil.Link

inductive Request where
  | status
  | shutdown
  | projects
  | agentStatus (project : ProjectId)
  | startAgent (r : StartAgentRequest)
  | resumeAgent (project : ProjectId)
  | stopAgent (project : ProjectId)
  | sendInput (r : SendInputRequest)
  | resize (r : ResizeRequest)
deriving DecidableEq, Repr

inductive Reply where
  | done
  | status (s : DaemonStatus)
  | projects (l : ProjectList)
  | agent (s : AgentStatus)
deriving DecidableEq, Repr

/-- Why a call brought no reply. -/
structure CallFailure where
  status : Status
  /-- The address that no connection could be made to, if it came to that. -/
  address : Option String := none
deriving DecidableEq, Repr

/-- What becomes of calls and of requests for streams. -/
structure Network where
  call : Endpoint → Request → Except CallFailure Reply
  follow : Endpoint → StreamKind → String → Except CallFailure (List StreamItem)

namespace Network

def unreachable (e : Endpoint) : CallFailure :=
  ⟨⟨.unavailable, "tcp connect error"⟩, some (String.ofList e.authority)⟩

/-- A network on which nobody can be reached. -/
def down : Network where
  call e _ := .error (unreachable e)
  follow e _ _ := .error (unreachable e)

/-- Binds the channel to the registered daemon and asks whether it answers. -/
def acquire (net : Network) (c : Channel) :
    Option Record → Channel × Except ChannelError Record
  | none => (c, .error .noDaemon)
  | some r =>
    let (c, bound) := c.initFrom r
    let result : Except ChannelError Record := do
      bound
      let client ← c.client .daemon
      match net.call client.endpoint .status with
      | .ok _ => .ok r
      | .error failure => .error (.unreachable failure.status)
    (c, result)

/-- Asks for a stream; before the channel is bound the daemon counts as unavailable. -/
def openStream (net : Network) (c : Channel) (key : StreamKey) : Except CallFailure (List StreamItem) :=
  match c.client .agent with
  | .error e => .error ⟨⟨.unavailable, e.message⟩, none⟩
  | .ok client => net.follow client.endpoint key.kind key.subject

end Network

end Vigil.Link
