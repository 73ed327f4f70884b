import Vigil.Cli.Grammar
import Vigil.Text.Number
/-! How the words of a command line are read. -/
namespace Vigil.Cli

/-- The digits of a number of 64 bits; what stops the reading first is the reason given. -/
def int64Digits (negative : Bool) : Nat → List Char → Except String Int
  | acc, [] => .ok (if negative then -(acc : Int) else acc)
  | acc, c :: r =>
    match digit? 10 c with
    | none => .error "invalid digit found in string"
    | some d =>
      let acc := acc * 10 + d
      if negative && 9223372036854775808 < acc then .error "number too small to fit in target type"
      else if !negative && 9223372036854775807 < acc then
        .error "number too large to fit in target type"
      else int64Digits negative acc r

def int64 (s : List Char) : Except String Int :=
  match s with
  | [] => .error "cannot parse integer from empty string"
  | ['+'] | ['-'] => .error "invalid digit found in string"
  | '+' :: r => int64Digits false 0 r
  | '-' :: r => int64Digits true 0 r
  | _ => int64Digits false 0 s

def int32 (s : String) : Except String Int32 := do
  let n ← int64 s.toList
  if n < -2147483648 ∨ 2147483647 < n then
    .error (String.ofList (Text.decimalInt n) ++ " is not in -2147483648..=2147483647")
  else .ok (Int32.ofInt n)

def checkValue (label value : String) : ValueKind → Except UsageError Unit
  | .text => .ok ()
  | .int32 =>
    match int32 value with
    | .ok _ => .ok ()
    | .error reason => .error (.invalidValue value label (some reason))
  | .choice words =>
    if words.contains value then .ok ()
    else if value.isEmpty then .error (.missingValue label)
    else .error (.invalidValue value label none)

/-- How far the reading has come. -/
structure Reading where
  /-- The arguments taken so far and their values, in order. -/
  given : List (String × String) := []
  /-- The last argument, which is taken once it is known where it ends. -/
  pending : Option (Argument × Option String) := none
  /-- How many positional arguments there have been. -/
  place : Nat := 0
  /-- Whether only positional arguments follow. -/
  literal : Bool := false

namespace Reading

def accept (r : Reading) (a : Argument) (value : String) : Except UsageError Reading := do
  if !a.many && r.given.any (·.1 == a.name) then .error (.repeated a.label)
  else
    match a.value with
    | some kind => checkValue a.label value kind
    | none => .ok ()
    .ok { r with given := r.given ++ [(a.name, value)] }

def resolve (r : Reading) : Except UsageError Reading :=
  match r.pending with
  | none => .ok r
  | some (a, none) => .error (.missingValue a.label)
  | some (a, some value) => { r with pending := none }.accept a value

/-- A word that there is no place for is complained of before anything else. -/
def positional (g : Grammar) (r : Reading) (word : String) : Except UsageError Reading :=
  match g.positionals[r.place]? with
  | none => .error (.unexpectedArgument word)
  | some a => do
    let r ← r.resolve
    .ok { r with pending := some (a, some word), place := r.place + 1 }

/-- A word that begins with two hyphens: a name, and a value behind an equals sign. -/
def long (g : Grammar) (r : Reading) (body : List Char) : Except UsageError Reading :=
  let name := String.ofList (body.takeWhile (· != '='))
  let value := match body.dropWhile (· != '=') with
    | '=' :: v => some (String.ofList v)
    | _ => none
  if name == "help" then
    match value with
    | some v => .error (.unexpectedValue v "--help")
    | none => do
      let _ ← r.resolve
      .error (.help g.help true)
  else match g.options.find? (·.name == name) with
  | none => .error (.unexpectedArgument ("--" ++ name))
  | some a =>
    match a.value, value with
    | none, some v => .error (.unexpectedValue v a.label)
    | none, none => do (← r.resolve).accept a ""
    | some _, some v => do (← r.resolve).accept a v
    | some _, none => do .ok { ← r.resolve with pending := some (a, none) }

def word (g : Grammar) (r : Reading) (w : String) : Except UsageError Reading :=
  if r.literal then r.positional g w
  else match w.toList with
    | ['-', '-'] => .ok { r with literal := true }
    | '-' :: '-' :: body => r.long g body
    | '-' :: 'h' :: _ => do
      let _ ← r.resolve
      .error (.help g.help true)
    | '-' :: c :: _ => .error (.unexpectedArgument (String.ofList ['-', c]))
    | _ =>
      match r.pending with
      | some (a, none) => .ok { r with pending := some (a, some w) }
      | _ => r.positional g w

def text (r : Reading) (name : String) : String := (r.given.lookup name).getD ""

def number (r : Reading) (name : String) : Int32 := ((int32 (r.text name)).toOption).getD 0

end Reading

/-- Reads words against a grammar. What is not given has its default. -/
def Grammar.read (g : Grammar) (words : List String) : Except UsageError Reading := do
  let r ← words.foldlM (Reading.word g) {}
  let r ← r.resolve
  let isGiven (a : Argument) := r.given.any (·.1 == a.name)
  let all := g.options ++ g.positionals
  if all.all fun a => isGiven a || !a.required then
    let defaults := (all.filter (!isGiven ·)).filterMap fun a => a.default.map (a.name, ·)
    .ok { r with given := r.given ++ defaults }
  else .error .missingArguments

/-- A command with what its arguments make of it. -/
structure Entry where
  name : String
  grammar : Grammar
  make : Reading → Command

def project : Argument := .needed "project"

def agentPath : String := "watchfire-shell agent"

def agentEntry (name about : String) (options positionals : List Argument)
    (make : Reading → AgentCommand) : Entry :=
  ⟨name, ⟨agentPath ++ " " ++ name, about, project :: options, positionals⟩, fun r => .agent (make r)⟩

def agentEntries : List Entry := [
  agentEntry "status" "" [] [] fun r => .status (r.text "project"),
  agentEntry "start" ""
    [.option "mode" .text "chat", .option "task" .int32 "0", .option "rows" .int32 "24",
      .option "cols" .int32 "80"] []
    fun r => .start ⟨r.text "project", r.text "mode", r.number "task", r.number "rows", r.number "cols"⟩,
  agentEntry "stop" "" [] [] fun r => .stop (r.text "project"),
  agentEntry "resume" "" [] [] fun r => .resume (r.text "project"),
  agentEntry "input" "Send text to the agent's terminal" [] [.positional "text" .text]
    fun r => .input (r.text "project") (r.text "text"),
  agentEntry "resize" "" [] [.positional "rows" .int32, .positional "cols" .int32]
    fun r => .resize ⟨r.text "project", r.number "rows", r.number "cols"⟩]

def kinds : List (String × StreamKind) := [("screen", .screen), ("issues", .issues), ("raw", .rawOutput)]

def entry (name about : String) (options : List Argument) (make : Reading → Command) : Entry :=
  ⟨name, ⟨"watchfire-shell " ++ name, about, options, []⟩, make⟩

def entries : List Entry := [
  entry "run" "Keep the daemon running and follow project streams until it shuts down"
    [{ project with required := false, many := true }]
    fun r => .run ((r.given.filter (·.1 == "project")).map (·.2)),
  entry "ensure" "Start the daemon if needed and print its descriptor" [] fun _ => .ensure,
  entry "status" "Print the registered daemon and what it reports about itself" [] fun _ => .status,
  entry "shutdown" "Ask the daemon to shut down" [] fun _ => .shutdown,
  entry "projects" "List projects known to the daemon" [] fun _ => .projects,
  entry "watch" "Follow a single stream of one project"
    [project, .option "kind" (.choice (kinds.map (·.1))) "screen"]
    fun r => .watch (r.text "project") ((kinds.lookup (r.text "kind")).getD .screen),
  entry "config" "Print the effective configuration"
    [.flag "save" "Persist it to the shell config file"] fun r => .config (!r.given.isEmpty)]

def agentMenu : Menu where
  path := agentPath
  about := "Agent controls (AgentService)"
  commands := agentEntries.map fun e => (e.name, e.grammar.about)

/-- The command on agents stands before the one on settings. -/
def mainMenu : Menu where
  path := "watchfire-shell"
  about := "Supervises the watchfire daemon and follows agent sessions"
  commands :=
    let plain := entries.map fun e => (e.name, e.grammar.about)
    plain.dropLast ++ ("agent", agentMenu.about) :: plain.drop (plain.length - 1)
  hasVersion := true

/-- The help on the command that the words lead to. To ask for help is a command too. -/
def helpOn (m : Menu) (entries : List Entry) : List String → UsageError
  | [] => .help m.help true
  | ["help"] => .help m.helpOnHelp true
  | "help" :: w :: _ => .unrecognizedCommand w
  | w :: rest =>
    match entries.find? (·.name == w), rest with
    | none, _ => .unrecognizedCommand w
    | some e, [] => .help e.grammar.help true
    | some _, w :: _ => .unrecognizedCommand w

/-- A word that begins with a hyphen where a command is chosen. -/
def menuOption (m : Menu) (name : List Char) (value : Option String) : UsageError :=
  let asked : Option (UsageError × String) := match name with
    | ['-', 'h'] => some (.help m.help true, "--help")
    | ['-', 'V'] => if m.hasVersion then some (.version, "--version") else none
    | _ =>
      if name == "--help".toList then some (.help m.help true, "--help")
      else if m.hasVersion && name == "--version".toList then some (.version, "--version")
      else none
  match asked, value with
  | none, _ => .unexpectedArgument (String.ofList name)
  | some (e, _), none => e
  | some (_, label), some v => .unexpectedValue v label

/-- Finds the command that the first word names. Without any there is help. -/
def choose (m : Menu) (help : List String → UsageError)
    (enter : String → Option (List String → Except UsageError Command)) :
    List String → Except UsageError Command
  | [] => .error (.help m.help false)
  | "--" :: [] => .error (.help m.help false)
  | "--" :: w :: _ =>
    .error (if (enter w).isSome || w == "help" then .unexpectedArgument w else .unrecognizedCommand w)
  | "help" :: rest => .error (help rest)
  | w :: rest =>
    match w.toList with
    | '-' :: '-' :: body =>
      let name := body.takeWhile (· != '=')
      let value := (body.drop name.length).drop 1
      .error (menuOption m ('-' :: '-' :: name)
        (if body.contains '=' then some (String.ofList value) else none))
    | '-' :: c :: _ => .error (menuOption m ['-', c] none)
    | _ =>
      match enter w with
      | some command => command rest
      | none => .error (.unrecognizedCommand w)

def enterAmong (entries : List Entry) (w : String) : Option (List String → Except UsageError Command) :=
  (entries.find? (·.name == w)).map fun e words => (e.grammar.read words).map e.make

/-- Reads the words behind the program's name. -/
def parse : List String → Except UsageError Command :=
  let agent := choose agentMenu (helpOn agentMenu agentEntries) (enterAmong agentEntries)
  let help : List String → UsageError
    | "agent" :: rest => helpOn agentMenu agentEntries rest
    | words => helpOn mainMenu entries words
  choose mainMenu help fun w => if w == "agent" then some agent else enterAmong entries w

end Vigil.Cli
