import Vigil.Files.Path
import Vigil.Files.Tree
/-! What a path leads to, and changes of a tree at the end of a path. Every path begins at the
root. -/
namespace Vigil.Files

/-- The longest name and the longest path, in bytes. -/
def nameLimit : Nat := 255

def pathLimit : Nat := 4095

/-- How many links a path may go through. -/
def linkLimit : Nat := 40

namespace Tree

/-- Follows words from `here`, which is a directory. The last one may name what is not there yet.
A link is replaced by its target, at most as often as the second argument says. -/
def walk (t : Tree) : Nat → Place → List String → Except FileError Place
  | _, here, [] => .ok here
  | left, here, word :: rest =>
    if word == "." then t.walk left here rest
    else if word == ".." then t.walk left here.dropLast rest
    else if nameLimit < word.utf8ByteSize then .error .nameTooLong
    else
      let there := here ++ [word]
      match t.get? there, left with
      | none, _ => if rest.isEmpty then .ok there else .error .notFound
      | some .dir, left => t.walk left there rest
      | some (.link _), 0 => .error .tooManyLinks
      | some (.link target), left + 1 =>
        t.walk left (if Path.isAbsolute target then [] else here) (Path.steps target ++ rest)
      | some _, _ => if rest.isEmpty then .ok there else .error .notADirectory
termination_by left _ words => (left, words.length)

/-- What no path may be. -/
def checkPath (path : String) : Except FileError Unit :=
  if path.toList.contains '\x00' then .error .invalidInput
  else if path.isEmpty then .error .notFound
  else if pathLimit < path.utf8ByteSize then .error .nameTooLong
  else .ok ()

/-- The place at the end of a path, if all before it is there. -/
def locate (t : Tree) (path : String) : Except FileError Place := do
  checkPath path
  t.walk linkLimit [] (Path.steps path)

/-- The directory that a path's last word stands in, and that word where it is a name. -/
def spot (t : Tree) (path : String) : Except FileError (Place × Option String) := do
  checkPath path
  let words := Path.words path
  let dir ← t.walk linkLimit [] (words.dropLast ++ ["."])
  match words.getLast? with
  | none | some "." | some ".." => .ok (dir, none)
  | some name => if nameLimit < name.utf8ByteSize then .error .nameTooLong else .ok (dir, some name)

def find (t : Tree) (path : String) : Except FileError (Place × Entry) := do
  let place ← t.locate path
  match t.get? place with
  | some entry => .ok (place, entry)
  | none => .error .notFound

def isFile (t : Tree) (path : String) : Bool :=
  match t.find path with
  | .ok (_, .file _) => true
  | _ => false

def isDirectory (t : Tree) (path : String) : Bool :=
  match t.find path with
  | .ok (_, .dir) => true
  | _ => false

def readAt (t : Tree) (path : String) : Except FileError (List UInt8) := do
  t.read (← t.locate path)

def writeAt (t : Tree) (path : String) (bytes : List UInt8) : Except FileError Tree := do
  t.write (← t.locate path) bytes

def makeDir (t : Tree) (path : String) : Except FileError Tree := do
  match ← t.spot path with
  | (_, none) => .error .alreadyExists
  | (dir, some name) =>
    if (t.get? (dir ++ [name])).isSome then .error .alreadyExists else .ok (t.put (dir ++ [name]) .dir)

/-- Moves a file, or a link as it stands. A path that ends in a slash asks for a directory, which
neither is. -/
def moveFile (t : Tree) (source target : String) : Except FileError Tree := do
  match ← t.spot source, ← t.spot target with
  | (_, none), _ | _, (_, none) => .error .busy
  | (above, some old), (dir, some name) =>
    if Path.endsInSlash source || Path.endsInSlash target then .error .notADirectory
    else t.rename (above ++ [old]) (dir ++ [name])

/-- A directory that is there already is as good as one that is made. -/
def ensureDir (t : Tree) (path : String) : Attempt :=
  match t.makeDir path with
  | .ok t => .start t
  | .error e => ⟨t, if t.isDirectory path then .ok () else .error e⟩

/-- Makes the directory that the names lead to, the last name first, and before it those that are
missing on the way. -/
def ensureDirs (t : Tree) : List String → Attempt
  | [] => .start t
  | name :: above =>
    let path := Path.ofNames (name :: above).reverse
    if t.makeDir path matches .error .notFound then
      let a := t.ensureDirs above
      match a.result with
      | .ok () => a.tree.ensureDir path
      | .error _ => a
    else t.ensureDir path

/-- The tree with a directory at the path, if there can be one. -/
def plantDir (t : Tree) (path : String) : Tree := (t.ensureDirs (Path.names path).reverse).tree

/-- The tree with a file at the path and the directories on the way to it, if they can be. -/
def plant (t : Tree) (path : String) (bytes : List UInt8) : Tree :=
  ((t.ensureDirs ((Path.names path).reverse.drop 1)).next (·.writeAt path bytes)).tree

end Tree

end Vigil.Files
