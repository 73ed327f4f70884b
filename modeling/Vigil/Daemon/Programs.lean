import Vigil.Files.Resolve
import Vigil.Text.Utf8
/-! Which paths name programs that can be started, and what is executed then. -/
namespace Vigil.Daemon

/-- How a program's file begins. -/
inductive Header where
  | native
  /-- The interpreter to start instead, and one word for it. -/
  | script (interpreter : String) (word : Option String)
deriving DecidableEq, Repr

namespace Header

def isGap (b : UInt8) : Bool := b == 32 || b == 9

def isMark (b : UInt8) : Bool := isGap b || b == 0

/-- What is read of a file to see its header, in bytes. -/
def size : Nat := 256

/-- An interpreter's name and the word behind it. -/
def ofLine (line : List UInt8) : Header :=
  let line := line.dropWhile isGap
  let name := line.takeWhile (!isMark ·)
  let rest := line.drop name.length
  let word := if rest.head? == some 0 then [] else (rest.dropWhile isGap).takeWhile (· != 0)
  let text (s : List UInt8) := String.ofList (Utf8.decodeLossy s)
  .script (text name) (if word.isEmpty then none else some (text word))

/-- A first line that does not end within the header counts only if it shows where the
interpreter's name ends. -/
def ofBytes? (bytes : List UInt8) : Option Header :=
  let head := bytes.take size
  if head.take 4 == [127, 69, 76, 70] then some .native
  else if head.take 2 != [35, 33] then none
  else
    let text := head.takeWhile (· != 0)
    if text.contains 10 then
      let line := (text.takeWhile (· != 10)).drop 2
      let line := (line.reverse.dropWhile isGap).reverse
      if line.isEmpty then none else some (ofLine line)
    else
      let line := (head.drop 2).dropWhile isGap
      if head.length < size || (line.length != 0 && line.any isMark) then some (ofLine line) else none

end Header

/-- What is executed in the end: a program, and the words behind its own name. -/
structure Image where
  place : Files.Place
  words : List String
deriving DecidableEq, Repr

structure Programs where
  files : Files.Tree
  /-- Which files may be executed. -/
  executable : Files.Place → Bool
  searchPath : List String := []
  /-- Where paths that do not begin at the root begin. -/
  workDir : String := "/"

namespace Programs

/-- A file that may be executed. -/
def check (p : Programs) (path : String) : Except Files.FileError (Files.Place × List UInt8) := do
  match ← p.files.find (Path.join p.workDir path) with
  | (place, .file bytes) =>
    if p.executable place then .ok (place, bytes) else .error .permissionDenied
  | _ => .error .permissionDenied

/-- Interpreters may be scripts themselves, down to a depth. -/
def load (p : Programs) : Nat → String → List String → Except Files.FileError Image
  | depth, path, words => do
    let (place, bytes) ← p.check path
    match Header.ofBytes? bytes, depth with
    | none, _ => .error .badFormat
    | some .native, _ => .ok ⟨place, words⟩
    | some (.script ..), 0 => .error .tooManyLinks
    | some (.script interpreter word), depth + 1 =>
      if interpreter.isEmpty then .error .permissionDenied
      else p.load depth interpreter (word.toList ++ path :: words)

def scriptDepth : Nat := 5

/-- The first of several places that holds a program. If what is in one of them may not be
executed, and there is no other, that is the reason given. -/
def firstOf (p : Programs) (words : List String) : Bool → List String → Except Files.FileError Image
  | forbidden, [] => .error (if forbidden then .permissionDenied else .notFound)
  | forbidden, path :: rest =>
    match p.load scriptDepth path words with
    | .ok image => .ok image
    | .error .permissionDenied => p.firstOf words true rest
    | .error .notFound | .error .notADirectory => p.firstOf words forbidden rest
    | .error e => .error e

/-- A name without a slash is looked for on the search path. -/
def find (p : Programs) (path : String) (words : List String) : Except Files.FileError Image :=
  if path.toList.contains '\x00' then .error .invalidInput
  else if path.isEmpty then .error .notFound
  else if path.toList.contains '/' then p.load scriptDepth path words
  else p.firstOf words false (p.searchPath.map (Path.join · path))

end Programs

end Vigil.Daemon
