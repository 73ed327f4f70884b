import Vigil.Files.Tree
import Vigil.Json.Writer
import Vigil.Text.Blank
import Vigil.Text.Utf8
/-! What a program records about its own use: a log of events, one JSON object a line, and a file
for each crash. -/
namespace Vigil.Telemetry

structure Recorder where
  app : String
  version : String
  session : String
  /-- Whether events are recorded. -/
  usage : Bool := false
  /-- Whether crashes are recorded. -/
  crash : Bool := false
deriving DecidableEq, Repr

/-- The words, in any case, that switch something on. -/
def isOn (value : Option String) : Bool :=
  value.any fun v => ["1", "true", "yes", "on"].contains (String.ofList (v.toList.map Char.toLower))

structure Event where
  kind : String
  at_ : Int
  app : String
  version : String
  session : String
  /-- By ascending key. -/
  properties : List (String × String)
deriving DecidableEq, Repr

/-- Properties with a blank key are dropped; of equal keys the last one counts. -/
def Recorder.event? (r : Recorder) (now : Int) (kind : String)
    (properties : List (String × String)) : Option Event :=
  if r.usage then
    some ⟨kind, now, r.app, r.version, r.session,
      Json.sortFields (properties.filter fun p => !Text.isBlank p.1)⟩
  else none

def Event.toJson (e : Event) : Json.Value := .obj [
  ("event_type", .str e.kind), ("at_unix_millis", .int e.at_), ("app", .str e.app),
  ("version", .str e.version), ("session_id", .str e.session),
  ("properties", .obj (e.properties.map fun p => (p.1, .str p.2)))]

def Event.line (e : Event) : List Char := Json.compact e.toJson ++ ['\n']

structure Report where
  at_ : Int
  app : String
  version : String
  session : String
  message : String
  location : Option String
  backtrace : Option String
deriving DecidableEq, Repr

def Recorder.report? (r : Recorder) (now : Int) (message : String)
    (location backtrace : Option String) : Option Report :=
  if r.crash then some ⟨now, r.app, r.version, r.session, message, location, backtrace⟩ else none

def Report.toJson (r : Report) : Json.Value :=
  let text : Option String → Json.Value
    | some s => .str s
    | none => .null
  .obj [("at_unix_millis", .int r.at_), ("app", .str r.app), ("version", .str r.version),
    ("session_id", .str r.session), ("message", .str r.message),
    ("location", text r.location), ("backtrace", text r.backtrace)]

/-- The directory of an application below a root. -/
def dirOf (root : Files.Place) (app : String) : Files.Place := root ++ ["telemetry", app]

def logOf (dir : Files.Place) : Files.Place := dir ++ ["events.jsonl"]

def oldLogOf (dir : Files.Place) : Files.Place := dir ++ ["events.jsonl.1"]

/-- A log of this many bytes or more is moved away before the next event. -/
def logLimit : Nat := 2097152

/-- Moves a full log over the one moved before it. -/
def rotate (t : Files.Tree) (dir : Files.Place) : Files.Attempt :=
  match t.get? (logOf dir) with
  | some (.file bytes) =>
    if logLimit ≤ bytes.length then
      let t := (t.removeFile (oldLogOf dir)).toOption.getD t
      (Files.Attempt.start t).next (·.rename (logOf dir) (oldLogOf dir))
    else .start t
  | _ => .start t

/-- An event that cannot be written is lost. -/
def writeEvent (t : Files.Tree) (dir : Files.Place) (e : Event) : Files.Tree :=
  match t.makeDirs dir with
  | .error _ => t
  | .ok t => ((rotate t dir).next (·.append (logOf dir) (Utf8.encode e.line))).tree

/-- Reports are told apart by their time and the process. -/
def reportName (r : Report) (pid : Nat) : String :=
  "crash-" ++ String.ofList (Text.decimalInt r.at_) ++ "-" ++ String.ofList (Text.decimal pid) ++
    ".json"

def reportsOf (dir : Files.Place) : Files.Place := dir ++ ["crashes"]

def writeReport (t : Files.Tree) (dir : Files.Place) (pid : Nat) (r : Report) : Files.Tree :=
  match t.makeDirs (reportsOf dir) with
  | .error _ => t
  | .ok t =>
    ((Files.Attempt.start t).next
      (·.write (reportsOf dir ++ [reportName r pid]) (Utf8.encode (Json.pretty r.toJson)))).tree

/-- What is known of a crash, and when it was. -/
structure Crash where
  at_ : Int
  message : String
  location : Option String := none
  backtrace : Option String := none
deriving DecidableEq, Repr

/-- A crash is reported if crashes are recorded. -/
def Recorder.writeCrash (r : Recorder) (t : Files.Tree) (dir : Files.Place) (pid : Nat)
    (c : Crash) : Files.Tree :=
  (r.report? c.at_ c.message c.location c.backtrace).elim t (writeReport t dir pid)

end Vigil.Telemetry
