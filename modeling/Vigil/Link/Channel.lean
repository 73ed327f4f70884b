import Vigil.Link.Endpoint
import Vigil.Streams.Status
/-! The channel that every call to the daemon goes through. -/
namespace Vigil.Link

inductive ChannelError where
  | notInitialized
  | invalidEndpoint (text : String) (fault : EndpointFault)
  | noDaemon
  | unreachable (status : Status)
deriving DecidableEq, Repr

def ChannelError.message : ChannelError → String
  | notInitialized => "control channel has not been initialised"
  | invalidEndpoint text _ => "invalid daemon endpoint \x60" ++ text ++ "\x60: invalid URI"
  | noDaemon => "no running daemon is registered"
  | unreachable status => "daemon did not answer: " ++ status.message

/-- Nothing is connected before a call needs it, so binding only checks the endpoint. -/
structure Channel where
  bound : Option Endpoint := none
deriving DecidableEq, Repr

inductive Service where
  | agent | daemon | project
deriving DecidableEq, Repr

/-- A client stays with the endpoint that was bound when it was made. -/
structure Client where
  service : Service
  endpoint : Endpoint
deriving DecidableEq, Repr

namespace Channel

/-- A refused endpoint leaves the channel bound as it was. -/
def init (c : Channel) (host : String) (port : UInt16) : Channel × Except ChannelError Unit :=
  let text := endpointOf host port
  match Endpoint.ofText text with
  | .ok e => (⟨some e⟩, .ok ())
  | .error fault => (c, .error (.invalidEndpoint text fault))

def initFrom (c : Channel) (r : Record) : Channel × Except ChannelError Unit :=
  c.init r.effectiveHost r.port

def get (c : Channel) : Except ChannelError Endpoint :=
  match c.bound with
  | some e => .ok e
  | none => .error .notInitialized

def client (c : Channel) (s : Service) : Except ChannelError Client := c.get.map (⟨s, ·⟩)

def endpoint? (c : Channel) : Option String := c.bound.map (·.text)

end Channel

end Vigil.Link
