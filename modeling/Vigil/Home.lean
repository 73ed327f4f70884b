import Vigil.Files.Path
import Vigil.Text.Blank
/-! The directories of a user, by the environment. -/
namespace Vigil

/-- The two variables that name a user's directories. -/
structure Home where
  home : Option String := none
  stateDir : Option String := none

namespace Home

/-- Where the daemon and its clients keep their files. -/
def sharedDir (h : Home) : String :=
  match h.stateDir.filter (!Text.isBlank ·), h.home with
  | some dir, _ => dir
  | none, some home => Path.join home ".watchfire"
  | none, none => "/tmp/watchfire"

def stateFile (h : Home) (name : String) : String := Path.join h.sharedDir name

def recordFile (h : Home) : String := h.stateFile "daemon.yaml"

/-- A tilde that stands for the user's directory is replaced by it. -/
def expand (h : Home) (path : String) : String :=
  match h.home, path.toList with
  | some home, ['~'] => Path.join home ""
  | some home, '~' :: '/' :: rest => Path.join home (String.ofList rest)
  | _, _ => path

end Home

end Vigil
