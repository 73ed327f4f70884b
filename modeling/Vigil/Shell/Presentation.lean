import Vigil.Shell.Event
import Vigil.Text.Blank
import Vigil.Text.Number
import Vigil.Text.Utf8
/-! The lines a terminal shows for events. -/
namespace Vigil.Shell

/-- The overlay shown last, so that the same one is not shown twice in a row. -/
structure Presentation where
  overlay : Option Overlay := none
deriving DecidableEq, Repr

def tagged (project text : String) : String := "[" ++ project ++ "] " ++ text

def screenText (f : ScreenBuffer) : String :=
  let number (n : Int32) := String.ofList (Text.decimalInt n.toInt)
  let last := (f.lines.reverse.find? fun line => !Text.isBlank line).getD ""
  "screen " ++ number f.cols ++ "x" ++ number f.rows ++ " @" ++ number f.cursorRow ++ "," ++
    number f.cursorCol ++ " | " ++ last

def issueText : Option AgentIssue → String
  | some i => "issue " ++ i.issueType ++ ": " ++ i.message
  | none => "issue cleared"

def outputText (data : List UInt8) : String :=
  String.ofList (Text.trimEnd (Utf8.decodeLossy data))

def streamText : StreamEvent → String
  | .screen f => screenText f
  | .issue i => issueText i
  | .rawOutput data => outputText data

/-- Nothing covers the overlay of a shutdown. -/
def Presentation.showOverlay (p : Presentation) (o : Overlay) : Presentation × Option String :=
  if p.overlay = some .shutDown ∨ p.overlay = some o then (p, none)
  else (⟨some o⟩, some ("== " ++ o.banner))

/-- The line for an event, if it changes what is shown. -/
def Presentation.render (p : Presentation) : Event → Presentation × Option String
  | .overlay o => p.showOverlay o
  | .stream project event => (p, some (tagged project (streamText event)))
  | .ended project kind detail =>
    (p, some (tagged project (kind.name ++ " stream ended: " ++ detail)))
  | .log line => (p, some line)

/-- The lines of several events, with nothing for those that change nothing. -/
def Presentation.renderAll (p : Presentation) : List Event → Presentation × List String
  | [] => (p, [])
  | e :: rest =>
    let (p, line) := p.render e
    let (p, lines) := p.renderAll rest
    (p, line.toList ++ lines)

end Vigil.Shell
