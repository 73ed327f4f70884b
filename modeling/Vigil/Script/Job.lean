import Vigil.Files.Resolve
import Vigil.Script.Grammar
import Vigil.Script.Signal
import Vigil.Text.Utf8
/-! A process that runs a script: its values, its streams, and the files and the clock it finds. -/
namespace Vigil.Script

open Files (Place Tree FileError)

/-- Where what is written to a stream goes. -/
inductive Sink where
  | output | nothing
  | file (place : Place)
deriving DecidableEq

/-- Why the commands that follow are passed over. -/
inductive Leaving where
  | script | function
  | loops (count : Nat)
  /-- The innermost of the loops goes on with its next round. -/
  | round (count : Nat)
deriving DecidableEq

/-- A change of the files, by a process. -/
structure Edit where
  at_ : Nat
  owner : Nat
  apply : Tree → Tree

/-- A process in the background, with the time and the status of its end. -/
structure Child where
  pid : Nat
  ends : Nat
  status : Nat

structure Job where
  name : String
  pid : Nat
  workDir : String
  tree : Tree
  /-- Which files may be executed. -/
  executable : Place → Bool := fun _ => false
  args : List (List Char) := []
  values : List (List Char × List Char) := []
  /-- The names of values that programs get to see, and of those that stay what they are. -/
  exported : List (List Char) := []
  fixed : List (List Char) := []
  functions : List (List Char × Command) := []
  /-- What the values were that a function has for itself. -/
  locals : List (List Char × Option (List Char)) := []
  options : List Char := []
  sinks : List (Nat × Sink) := [(1, .output)]
  input : List Char := []
  /-- What was written to the output and when, the last part first. -/
  written : List (Nat × List Char) := []
  status : Nat := 0
  /-- How the last script within the command ended, if there was one. -/
  innerStatus : Option Nat := none
  leaving : Option Leaving := none
  /-- Whether a failure is looked at, so that it does not end the script. -/
  guarded : Bool := false
  /-- What was connected stays so. -/
  keepsSinks : Bool := false
  /-- What is done about signals, and those that came meanwhile. -/
  traps : List (Signal × List Char) := []
  pending : List Signal := []
  /-- How many loops are gone through, and how many functions. -/
  loops : Nat := 0
  calls : Nat := 0
  /-- Which argument is read next for options, and how much of the one before is read. -/
  optionIndex : Nat := 1
  optionAt : Option Nat := none
  /-- Nanoseconds since the start. -/
  now : Nat := 0
  /-- The changes made so far, the last one first. -/
  edits : List Edit := []
  /-- Changes that processes in the background are going to make, the next one first. -/
  ahead : List Edit := []
  /-- The trees so far and when they came about, the newest first. -/
  history : List (Nat × Tree) := []
  children : List Child := []

namespace Job

/-- All that was written, in the order of time. -/
def said (p : Job) : List Char :=
  (p.written.reverse.mergeSort fun a b => decide (a.1 ≤ b.1)).flatMap (·.2)

def done (p : Job) (ok : Bool) : Job := { p with status := if ok then 0 else 1 }

/-- Ends the script. -/
def leave (p : Job) (status : Nat) : Job := { p with status, leaving := some .script }

/-- How many processes have been started in the background tells the next one's number. -/
def nextPid (p : Job) : Nat := p.pid + p.children.length + 1

def value? (p : Job) (name : List Char) : Option (List Char) :=
  match name with
  | ['$'] => some (Text.decimal p.pid)
  | ['#'] => some (Text.decimal p.args.length)
  | ['?'] => some (Text.decimal p.status)
  | ['!'] => p.children.head?.map fun c => Text.decimal c.pid
  | ['-'] => some p.options
  | ['0'] => some p.name.toList
  | ['@'] | ['*'] => if p.args.isEmpty then none else some ([' '].intercalate p.args)
  | _ =>
    match Text.digits? 10 name with
    | some n => p.args[n - 1]?
    | none => p.values.lookup name

def setValue (p : Job) (name value : List Char) : Job :=
  { p with values := (name, value) :: p.values.filter (·.1 != name) }

def dropValue (p : Job) (name : List Char) : Job :=
  { p with values := p.values.filter (·.1 != name) }

/-- The values that programs get to see. -/
def environment (p : Job) : List (List Char × List Char) :=
  p.values.filter fun v => p.exported.contains v.1

def environmentText (p : Job) : List Char :=
  p.environment.flatMap fun v => v.1 ++ '=' :: v.2 ++ ['\n']

/-- A process that was started with some values. -/
def withEnvironment (p : Job) (values : List (List Char × List Char)) : Job :=
  let p := { p with values, exported := "PWD".toList :: values.map Prod.fst }
  (p.setValue "OPTIND".toList ['1']).setValue "PWD".toList p.workDir.toList

def trap? (p : Job) (s : Signal) : Option (List Char) := p.traps.lookup s

def setTrap (p : Job) (s : Signal) (script : List Char) : Job :=
  { p with traps := (s, script) :: p.traps.filter (·.1 != s) }

def dropTrap (p : Job) (s : Signal) : Job := { p with traps := p.traps.filter (·.1 != s) }

def rooted (p : Job) (path : String) : String := Path.join p.workDir path

/-- The tree after a change, unless that fails. -/
def change (p : Job) (f : Tree → Except FileError Tree) : Except FileError Job := do
  let tree ← f p.tree
  let edit : Edit := ⟨p.now, p.pid, fun t => (f t).toOption.getD t⟩
  .ok { p with tree, edits := edit :: p.edits, history := (p.now, tree) :: p.history }

/-- What was going to be changed up to a time is changed. -/
def catchUp (p : Job) (t : Nat) : Job :=
  let due := p.ahead.takeWhile (·.at_ ≤ t)
  let p := due.foldl (fun p e =>
    let tree := e.apply p.tree
    { p with tree, edits := e :: p.edits, history := (e.at_, tree) :: p.history }) p
  { p with ahead := p.ahead.drop due.length }

def advance (p : Job) (t : Nat) : Job := { p.catchUp t with now := max p.now t }

def sink (p : Job) (stream : Nat) : Sink := (p.sinks.lookup stream).getD .nothing

def connect (p : Job) (stream : Nat) (s : Sink) : Job :=
  { p with sinks := (stream, s) :: p.sinks.filter (·.1 != stream) }

def emitTo (p : Job) (stream : Nat) (s : List Char) : Job :=
  if s.isEmpty then p
  else match p.sink stream with
    | .output => { p with written := (p.now, s) :: p.written }
    | .nothing => p
    | .file place => (p.change (·.append place (Utf8.encode s))).toOption.getD p

def emit (p : Job) (s : List Char) : Job := p.emitTo 1 s

def say (p : Job) (s : List Char) : Job := (p.emit s).done true

/-- Says on the error stream what went wrong. -/
def complain (p : Job) (status : Nat) (s : String) : Job :=
  { p.emitTo 2 (s.toList ++ ['\n']) with status }

/-- The shell's own complaint. -/
def refuse (p : Job) (status : Nat) (s : String) : Job := p.complain status (p.name ++ ": 1: " ++ s)

/-- A complaint that ends the script. -/
def fail (p : Job) (s : String) : Job := (p.refuse 2 s).leave 2

/-- A new value, where the name takes one. -/
def assign (p : Job) (name value : List Char) : Job :=
  if p.fixed.contains name then p.fail (String.ofList name ++ ": is read only")
  else if name == "OPTIND".toList then
    { p.setValue name value with optionIndex := (Text.digits? 10 value).getD 1, optionAt := none }
  else p.setValue name value

/-- Other arguments, whose options have not been read. -/
def setArgs (p : Job) (args : List (List Char)) : Job :=
  { p with args, optionIndex := 1, optionAt := none }

/-- What a process in the same place leaves to the one that started it. -/
def inherit_ (p q : Job) : Job :=
  { p with
    tree := q.tree
    now := q.now
    edits := q.edits
    ahead := q.ahead
    history := q.history
    written := q.written
    input := q.input
    status := q.status }

def hasOption (p : Job) (c : Char) : Bool := p.options.contains c

/-- The system's own words on a process: it leads its own group. -/
def statusLine (p : Job) : List Char :=
  let n := Text.decimal p.pid
  n ++ " (sh) S 1 ".toList ++ n ++ [' '] ++ n ++ " 0 -1 4194304\n".toList

/-- What the system shows of a process. -/
def processEntry? (p : Job) (path : String) : Option String :=
  let own := ["/proc/" ++ String.ofList (Text.decimal p.pid) ++ "/", "/proc/self/"]
  (own.find? fun dir => dir.toList.isPrefixOf path.toList).map fun dir =>
    String.ofList (path.toList.drop dir.length)

def read (p : Job) (path : String) : Except FileError (List Char) :=
  match p.processEntry? path with
  | some "stat" => .ok p.statusLine
  | some "comm" => .ok "sh\n".toList
  | _ => (p.tree.readAt (p.rooted path)).map Utf8.decodeLossy

/-- What a link of the system's stands for. -/
def readLink (p : Job) (path : String) : Except FileError String :=
  match p.processEntry? path with
  | some "fd/0" | some "fd/2" => .ok "/dev/null"
  | _ => do
    match ← p.tree.spot (p.rooted path) with
    | (dir, some name) =>
      match p.tree.get? (dir ++ [name]) with
      | some (.link target) => .ok target
      | some _ => .error .invalidInput
      | none => .error .notFound
    | _ => .error .invalidInput

/-- The names in a directory, in order. -/
def namesIn (p : Job) (place : Place) : List String :=
  let inside := p.tree.entries.filterMap fun e =>
    if e.1.length == place.length + 1 && place.isPrefixOf e.1 then e.1.getLast? else none
  inside.mergeSort fun a b => decide (a ≤ b)

end Job

end Vigil.Script
