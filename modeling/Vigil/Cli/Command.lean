import Vigil.Streams.Basic
import Vigil.Text.Unstyled
/-! What can be asked for on the command line. -/
namespace Vigil.Cli

inductive AgentCommand where
  | status (project : String)
  | start (r : StartAgentRequest)
  | stop (project : String)
  | resume (project : String)
  | input (project text : String)
  | resize (r : ResizeRequest)
deriving DecidableEq, Repr

inductive Command where
  | run (projects : List String)
  | ensure
  | status
  | shutdown
  | projects
  | watch (project : String) (kind : StreamKind)
  | agent (command : AgentCommand)
  | config (save : Bool)
deriving DecidableEq, Repr

/-- Why arguments ask for no command. -/
inductive UsageError where
  /-- Help was asked for, or nothing was. -/
  | help (lines : List String) (asked : Bool)
  | version
  | unrecognizedCommand (word : String)
  | unexpectedArgument (word : String)
  | missingArguments
  /-- An argument's value is not one; sometimes there is a reason to give. -/
  | invalidValue (value label : String) (reason : Option String)
  | missingValue (label : String)
  | repeated (label : String)
  | unexpectedValue (value label : String)
deriving DecidableEq, Repr

namespace UsageError

def versionText : String := "watchfire-shell 0.1.0"

/-- Words of the command line stand in a colour of their own. -/
def coloured (word : String) : String := "\x1b[33m" ++ word ++ "\x1b[0m"

/-- What is said on a terminal. -/
def styled : UsageError → String
  | help lines _ => lines.headD ""
  | version => versionText
  | unrecognizedCommand w => "error: unrecognized subcommand '" ++ coloured w ++ "'"
  | unexpectedArgument w => "error: unexpected argument '" ++ coloured w ++ "' found"
  | missingArguments => "error: the following required arguments were not provided:"
  | invalidValue v label reason =>
    "error: invalid value '" ++ coloured v ++ "' for '" ++ label ++ "'" ++ reason.elim "" (": " ++ ·)
  | missingValue label => "error: a value is required for '" ++ label ++ "' but none was supplied"
  | repeated label => "error: the argument '" ++ label ++ "' cannot be used multiple times"
  | unexpectedValue v label =>
    "error: unexpected value '" ++ coloured v ++ "' for '" ++ label ++ "' found; no more were expected"

/-- A text up to its first line end, which may have a carriage return before it. -/
def firstLine (s : List Char) : List Char :=
  let line := s.takeWhile (· != '\n')
  if line.length != s.length && line.getLast? == some '\r' then line.dropLast else line

/-- The first line of what is said where there is no terminal. -/
def message (e : UsageError) : String := String.ofList (firstLine (Text.unstyled e.styled).toList)

/-- To ask for help or the version is no mistake. -/
def exitCode : UsageError → Nat
  | version | help _ true => 0
  | _ => 2

/-- All that is said to somebody who asked for it. -/
def lines : UsageError → List String
  | help lines _ => lines
  | e => [e.message]

end UsageError

end Vigil.Cli
