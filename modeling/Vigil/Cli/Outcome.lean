import Vigil.Cli.Command
import Vigil.Cli.Failure
import Vigil.Json.Writer
import Vigil.Settings
import Vigil.Shell.Presentation
import Vigil.Shell.Run
import Vigil.Time.Rfc3339
/-! What the commands say and how they fail. -/
namespace Vigil.Cli

structure Outcome where
  /-- What was said, line by line. -/
  lines : List String := []
  failure : Option Failure := none

namespace Outcome

def output (o : Outcome) : String := "".intercalate (o.lines.map (· ++ "\n"))

def errors (o : Outcome) : String := o.failure.elim "" fun f => "Error: " ++ f.describe ++ "\n"

def exitCode (o : Outcome) : Nat := if o.failure.isSome then 1 else 0

def after (lines : List String) (o : Outcome) : Outcome := { o with lines := lines ++ o.lines }

end Outcome

def recordLines (r : Record) : List String :=
  ["endpoint=" ++ r.endpoint, "pid=" ++ toString r.pid.toNat] ++
    (r.startedAt.map fun t => "started_at=" ++ String.ofList (Rfc3339.writeOffset t)).toList

def numberText (n : Int32) : String := String.ofList (Text.decimalInt n.toInt)

def statusLines (s : DaemonStatus) : List String :=
  ["active_agents=" ++ numberText s.activeAgents] ++ s.activeProjects.map ("active\t" ++ ·) ++
    (if s.updateAvailable then ["update=" ++ s.updateVersion ++ "\t" ++ s.updateUrl] else [])

def projectLine (p : Project) : String := "\t".intercalate [p.projectId, p.name, p.status, p.path]

def agentLines (s : AgentStatus) : List String :=
  ["running=" ++ (if s.isRunning then "true" else "false") ++ "\tmode=" ++ s.mode ++
      "\ttask=" ++ numberText s.taskNumber ++ "\t" ++ s.taskTitle] ++
    (if s.wildfirePhase.isEmpty then [] else ["phase=" ++ s.wildfirePhase]) ++
    ((s.issue.bind (·.active?)).map fun i => "issue=" ++ i.issueType ++ "\t" ++ i.message).toList

/-- What a command line meets: the record and whether its process lives, and the network. -/
structure Place where
  left : Option Record
  isAlive : UInt32 → Bool
  network : Link.Network

namespace Place

def live (p : Place) : Option Record := p.left.filter fun r => p.isAlive r.pid

/-- The channel to the daemon that is registered and alive. -/
def connect (p : Place) : Except Failure Link.Endpoint := do
  match p.live with
  | none => .error (.channel .noDaemon)
  | some r =>
    let (c, bound) := ({} : Link.Channel).initFrom r
    ((do bound; c.get) : Except Link.ChannelError Link.Endpoint).mapError .channel

/-- What a call's reply says. -/
def ask (p : Place) (r : Link.Request) (say : Link.Reply → List String) : Outcome :=
  match p.connect with
  | .error f => { failure := some f }
  | .ok e =>
    match p.network.call e r with
    | .error f => { failure := some (.call f) }
    | .ok reply => { lines := say reply }

def status (p : Place) : Outcome :=
  match p.live with
  | none => { lines := ["no daemon running"] ++
      (p.left.map fun r => "stale descriptor left by pid " ++ toString r.pid.toNat).toList }
  | some r => (p.ask .status fun
      | .status s => statusLines s
      | _ => []).after (recordLines r)

/-- The events of a stream up to its end, drawn by `view`. -/
def follow (project : String) (view : Shell.Presentation) :
    List StreamItem → List String × StreamEnd
  | [] | .close :: _ => ([], .completed)
  | .error s :: _ => ([], .ofStatus s)
  | .event e :: rest =>
    let (view, line) := view.render (.stream project e)
    let (lines, how) := follow project view rest
    (line.toList ++ lines, how)

def watch (p : Place) (project : String) (kind : StreamKind) : Outcome :=
  match p.connect with
  | .error f => { failure := some f }
  | .ok e =>
    let (lines, how) := match p.network.follow e kind project with
      | .error f => ([], StreamEnd.ofStatus f.status)
      | .ok items => follow project {} items
    { lines := lines ++ (how.detail?.map fun d =>
        "[" ++ project ++ "] " ++ kind.name ++ " stream ended: " ++ d).toList
      failure := if how.isError then some (.text "stream ended with an error") else none }

def agent (p : Place) : AgentCommand → Outcome
  | .status project => p.ask (.agentStatus ⟨project⟩) say
  | .start r => p.ask (.startAgent r) say
  | .resume project => p.ask (.resumeAgent ⟨project⟩) say
  | .stop project => p.ask (.stopAgent ⟨project⟩) fun _ => ["stopped"]
  | .input project text => p.ask (.sendInput ⟨project, Utf8.encodeText text⟩) fun _ => []
  | .resize r => p.ask (.resize r) fun _ => []
where
  /-- What an agent's state says. -/
  say : Link.Reply → List String
    | .agent s => agentLines s
    | _ => []

def shutdown (p : Place) : Outcome := p.ask .shutdown fun _ => ["shutdown requested"]

def projects (p : Place) : Outcome := p.ask .projects fun
  | .projects l => l.projects.map projectLine
  | _ => []

end Place

/-- What is said of a daemon that was asked for. A launch that failed did so for `fault`. -/
def ensured (fault : Option Files.FileError) : Except Daemon.StartError Record → Outcome
  | .ok r => { lines := recordLines r }
  | .error e => { failure := some (match e, fault with
      | .launch path _, some f => .launch path f
      | e, _ => .start e) }

/-- The end of a run that said `lines`. -/
def ran (fault : Option Files.FileError) (lines : List String) :
    Except Daemon.StartError Shell.Exit → Outcome
  | .ok .restartAbandoned => ⟨lines, some (.text "daemon could not be restarted")⟩
  | .ok _ => ⟨lines, none⟩
  | .error e => (ensured fault (.error e)).after lines

/-- Says the settings, and where they were saved if that was asked for. -/
def configured (s : Settings) (path : String) (saved : Option (Except Files.FileError Unit)) :
    Outcome :=
  let text := String.ofList (Json.pretty s.toJson)
  match saved with
  | none => ⟨[text], none⟩
  | some (.ok ()) => ⟨[text, "saved to " ++ path], none⟩
  | some (.error e) => ⟨[text], some (.file e)⟩

end Vigil.Cli
