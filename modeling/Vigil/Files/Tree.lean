import Vigil.Files.Error
/-! Trees of files and directories, and the operations that change them. A place is the list of
names that leads to it from the root. -/
namespace Vigil.Files

abbrev Place := List String

inductive Entry where
  | file (bytes : List UInt8)
  | dir
  /-- A symbolic link, and the path it stands for. -/
  | link (target : String)
  /-- Has nothing to read and swallows what is written. -/
  | device
deriving DecidableEq, Repr

structure Tree where
  entries : List (Place × Entry) := []
deriving Repr

namespace Tree

/-- The root is a directory always. -/
def get? (t : Tree) (p : Place) : Option Entry :=
  if p = [] then some .dir else t.entries.lookup p

def put (t : Tree) (p : Place) (e : Entry) : Tree :=
  ⟨(p, e) :: t.entries.filter fun x => x.1 != p⟩

def erase (t : Tree) (p : Place) : Tree := ⟨t.entries.filter fun x => x.1 != p⟩

def isDir (t : Tree) (p : Place) : Bool := t.get? p == some .dir

/-- Makes the directories named below `base`, as far as they are missing. A file at the end of
the way exists already; one earlier is no directory. -/
def makeDirsBelow (t : Tree) (base : Place) : List String → Except FileError Tree
  | [] => .ok t
  | name :: rest =>
    let here := base ++ [name]
    match t.get? here with
    | some .dir => t.makeDirsBelow here rest
    | none => (t.put here .dir).makeDirsBelow here rest
    | some _ => .error (if rest.isEmpty then .alreadyExists else .notADirectory)

def makeDirs (t : Tree) (p : Place) : Except FileError Tree := t.makeDirsBelow [] p

/-- What stops a file from standing right below `p`. -/
def parentError? (t : Tree) (p : Place) : Option FileError :=
  if t.isDir p then none
  else if (List.range (p.length + 1)).any fun n =>
      match t.get? (p.take n) with
      | none | some .dir => false
      | some _ => true
    then some .notADirectory
  else some .notFound

def write (t : Tree) (p : Place) (bytes : List UInt8) : Except FileError Tree :=
  match t.parentError? p.dropLast with
  | some e => .error e
  | none =>
    match t.get? p with
    | some .dir => .error .isADirectory
    | some .device => .ok t
    | _ => .ok (t.put p (.file bytes))

def append (t : Tree) (p : Place) (bytes : List UInt8) : Except FileError Tree :=
  match t.get? p with
  | some (.file old) => t.write p (old ++ bytes)
  | _ => t.write p bytes

/-- Moves what is no directory to a place that is free or held by the like. -/
def rename (t : Tree) (source target : Place) : Except FileError Tree :=
  match t.get? source with
  | none | some .dir => .error .notFound
  | some entry =>
    if t.isDir target then .error .isADirectory
    else match t.parentError? target.dropLast with
      | some e => .error e
      | none => .ok ((t.erase source).put target entry)

def removeFile (t : Tree) (p : Place) : Except FileError Tree :=
  match t.get? p with
  | some .dir => .error .isADirectory
  | some _ => .ok (t.erase p)
  | none => .error .notFound

def read (t : Tree) (p : Place) : Except FileError (List UInt8) :=
  match t.get? p with
  | some (.file bytes) => .ok bytes
  | some .dir => .error .isADirectory
  | some .device => .ok []
  | some (.link _) | none => .error .notFound

end Tree

/-- A file tree and how far a change of it got. -/
structure Attempt where
  tree : Tree
  result : Except FileError Unit

namespace Attempt

def start (t : Tree) : Attempt := ⟨t, .ok ()⟩

/-- The tree after the step, or the one before it with the reason why there is none. -/
def next (a : Attempt) (step : Tree → Except FileError Tree) : Attempt :=
  match a.result with
  | .error _ => a
  | .ok () =>
    match step a.tree with
    | .ok tree => ⟨tree, .ok ()⟩
    | .error e => ⟨a.tree, .error e⟩

end Attempt

end Vigil.Files
