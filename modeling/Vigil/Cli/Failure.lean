import Vigil.Daemon.Error
import Vigil.Files.Tree
import Vigil.Link.Network
import Vigil.Text.Shown
/-! How the failure of a command is shown. -/
namespace Vigil.Cli

inductive Failure where
  | start (e : Daemon.StartError)
  /-- A program could not be started. -/
  | launch (path : String) (e : Files.FileError)
  | channel (e : Link.ChannelError)
  | call (e : Link.CallFailure)
  | file (e : Files.FileError)
  | text (message : String)

/-- Characters that could not be seen are shown by their code points. -/
def quotedChar (c : Char) : List Char :=
  if c == '\x22' || c == '\\' then ['\\', c]
  else if c == '\n' then ['\\', 'n']
  else if c == '\r' then ['\\', 'r']
  else if c == '\t' then ['\\', 't']
  else if c == '\x00' then ['\\', '0']
  else if Text.isShown c then [c]
  else ['\\', 'u', '\x7b'] ++ Nat.toDigits 16 c.toNat ++ ['\x7d']

def quoted (s : String) : String :=
  "\"" ++ String.ofList (s.toList.flatMap quotedChar) ++ "\""

/-- A name with fields behind it. -/
def record (name : String) (fields : List (String × String)) : String :=
  name ++ " \x7b " ++ ", ".intercalate (fields.map fun f => f.1 ++ ": " ++ f.2) ++ " \x7d"

def osError (code : Nat) (kind message : String) : String :=
  record "Os" [("code", toString code), ("kind", kind), ("message", quoted message)]

def fileText (e : Files.FileError) : String :=
  match e.code? with
  | some code => osError code e.kind e.message
  | none => record "Error" [("kind", e.kind), ("message", quoted e.message)]

def startText : Daemon.StartError → String
  | .daemonNotFound name => "DaemonNotFound(" ++ quoted name ++ ")"
  | .launch path reason => record "Launch" [("path", quoted path), ("source", quoted reason)]
  | .startTimeout budget => "StartTimeout(" ++ budget.text ++ ")"
  | .cancelled => "Cancelled"

def faultText : Link.EndpointFault → String
  | .invalidChar => "InvalidUriChar"
  | .invalidAuthority => "InvalidAuthority"
  | .invalidFormat => "InvalidFormat"
  | .tooLong => "TooLong"

/-- What is underneath a call that came to no connection. -/
def connectText (address : String) : String :=
  "tonic::transport::Error(Transport, ConnectError(ConnectError(" ++ quoted "tcp connect error" ++
    ", " ++ address ++ ", " ++ osError 101 "NetworkUnreachable" "Network is unreachable" ++ ")))"

def callText (e : Link.CallFailure) : String :=
  let message := if e.status.message.isEmpty then [] else [("message", quoted e.status.message)]
  let source := match e.address with
    | some a => "Some(" ++ connectText a ++ ")"
    | none => "None"
  record "Status" ([("code", e.status.code.name)] ++ message ++ [("source", source)])

def channelText : Link.ChannelError → String
  | .notInitialized => "NotInitialized"
  | .invalidEndpoint text fault => record "InvalidEndpoint" [("endpoint", quoted text),
      ("source", "tonic::transport::Error(InvalidUri, InvalidUri(" ++ faultText fault ++ "))")]
  | .noDaemon => "NoDaemon"
  | .unreachable status => "Unreachable(" ++ callText ⟨status, none⟩ ++ ")"

def Failure.describe : Failure → String
  | start e => startText e
  | launch path e => record "Launch" [("path", quoted path), ("source", fileText e)]
  | channel e => channelText e
  | call e => callText e
  | file e => fileText e
  | text message => quoted message

end Vigil.Cli
