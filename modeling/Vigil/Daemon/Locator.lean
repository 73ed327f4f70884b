import Vigil.Files.Resolve
/-! Where the daemon's executable is looked for. -/
namespace Vigil.Daemon

structure Locator where
  name : String := "watchfired"
  override : Option String := none
  searchPath : List String := []
  /-- Where the running program's own executable is. -/
  exeDir : Option String := none
  workDir : Option String := none
  installDir : String := "/usr/local/bin"

namespace Locator

/-- In the order they are tried: what was asked for, the search path, places beside this
program, places of a build, the install directory. -/
def candidates (l : Locator) : List String :=
  let below (dir : String) (names : List String) := (names ++ [l.name]).foldl Path.join dir
  l.override.toList ++ l.searchPath.map (below · []) ++
    (l.exeDir.toList.flatMap fun dir =>
      [below dir [], below dir ["..", "Resources"], below dir ["..", "..", "build"]]) ++
    (l.workDir.toList.flatMap fun dir => [below dir ["build"], below dir ["..", "build"]]) ++
    [below l.installDir []]

/-- The first candidate that is a file. Only absolute paths lead anywhere. -/
def find (l : Locator) (files : Files.Tree) : Option String :=
  l.candidates.find? fun path => Path.isAbsolute path && files.isFile path

end Locator

end Vigil.Daemon
