import Vigil.Cli.Command
/-! The arguments that commands take, and the help on them. -/
namespace Vigil.Cli

inductive ValueKind where
  | text
  | int32
  | choice (words : List String)

structure Argument where
  name : String
  /-- What its value may be; without one it is a flag. -/
  value : Option ValueKind
  isPositional : Bool := false
  required : Bool := false
  /-- Whether it may be given more than once. -/
  many : Bool := false
  /-- What it means not to give it. -/
  default : Option String := none
  about : String := ""

namespace Argument

/-- What the value is called: what may come many times has a name in the plural. -/
def slot (a : Argument) : String :=
  "<" ++ String.ofList (a.name.toList.map Char.toUpper) ++ (if a.many then "S>" else ">")

/-- How the argument is shown. -/
def label (a : Argument) : String :=
  if a.isPositional then a.slot
  else if a.value.isNone then "--" ++ a.name
  else "--" ++ a.name ++ " " ++ a.slot

def flag (name about : String) : Argument := { name, value := none, about }

def needed (name : String) : Argument := { name, value := some .text, required := true }

def option (name : String) (kind : ValueKind) (default : String) : Argument :=
  { name, value := some kind, default := some default }

def positional (name : String) (kind : ValueKind) : Argument :=
  { name, value := some kind, isPositional := true, required := true }

/-- What help says of it: what it is about, its default and the words it may be. -/
def remark (a : Argument) : String :=
  let words := match a.value with
    | some (.choice words) => ["[possible values: " ++ ", ".intercalate words ++ "]"]
    | _ => []
  let about := if a.about.isEmpty then [] else [a.about]
  " ".intercalate (about ++ a.default.toList.map (fun d => "[default: " ++ d ++ "]") ++ words)

end Argument

/-- A title with rows of two columns below it. Without rows there is nothing. -/
def helpSection (title : String) (rows : List (String × String)) : List String :=
  let width := (rows.map (·.1.length)).foldl max 2 + 2
  if rows.isEmpty then []
  else ["", title] ++ rows.map fun r =>
    "  " ++ r.1 ++ String.ofList (List.replicate (width - r.1.length) ' ') ++ r.2

def helpHead (about usage : String) : List String :=
  (if about.isEmpty then [] else [about, ""]) ++ ["Usage: " ++ usage]

def helpRow : String × String := ("-h, --help", "Print help")

/-- The arguments of one command, which is reached by the words of its path. -/
structure Grammar where
  path : String
  about : String := ""
  options : List Argument := []
  positionals : List Argument := []

namespace Grammar

/-- Options that may be left out have one word for them all. -/
def usage (g : Grammar) : String :=
  let needed := (g.options ++ g.positionals).filter (·.required)
  let free := if g.options.all (·.required) then [] else ["[OPTIONS]"]
  " ".intercalate (g.path :: free ++ needed.map (·.label))

def help (g : Grammar) : List String :=
  helpHead g.about g.usage ++
    helpSection "Arguments:" (g.positionals.map fun a => (a.label, a.remark)) ++
    helpSection "Options:" ((g.options.map fun a => ("    " ++ a.label, a.remark)) ++ [helpRow])

end Grammar

/-- Commands to choose from. -/
structure Menu where
  path : String
  about : String
  commands : List (String × String)
  /-- Whether the version can be asked for. -/
  hasVersion : Bool := false

def helpAbout : String := "Print this message or the help of the given subcommand(s)"

def Menu.helpOnHelp (m : Menu) : List String :=
  helpHead helpAbout (m.path ++ " help [COMMAND]...") ++
    helpSection "Arguments:" [("[COMMAND]...", "Print help for the subcommand(s)")]

def Menu.help (m : Menu) : List String :=
  helpHead m.about (m.path ++ " <COMMAND>") ++
    helpSection "Commands:"
      (m.commands ++ [("help", helpAbout)]) ++
    helpSection "Options:"
      (helpRow :: if m.hasVersion then [("-V, --version", "Print version")] else [])

end Vigil.Cli
