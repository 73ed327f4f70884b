/-! Paths as they are written, and how they are put together. Nothing is normalized. -/
namespace Vigil.Path

/-- An absolute path on the right stands alone. -/
def join (left right : String) : String :=
  if right.toList.head? == some '/' then right
  else if left.isEmpty || left.toList.getLast? == some '/' then left ++ right
  else left ++ "/" ++ right

/-- Cuts at every `c`; a text without one is a single piece. -/
def splitAt (c : Char) : List Char → List (List Char)
  | [] => [[]]
  | x :: r =>
    if x == c then [] :: splitAt c r
    else match splitAt c r with
      | [] => [[x]]
      | piece :: pieces => (x :: piece) :: pieces

/-- The words between slashes. A single point is one of them. -/
def words (path : String) : List String :=
  ((splitAt '/' path.toList).map String.ofList).filter (!·.isEmpty)

def endsInSlash (path : String) : Bool := path.toList.getLast? == some '/'

/-- The words to follow from left to right. What ends in a slash ends in a directory, which a
single point asks for. -/
def steps (path : String) : List String := words path ++ (if endsInSlash path then ["."] else [])

/-- The names between slashes, without the empty ones and those that stay in place. -/
def names (path : String) : List String := (words path).filter (· != ".")

def ofNames (names : List String) : String := "/" ++ "/".intercalate names

def isAbsolute (path : String) : Bool := path.toList.head? == some '/'

/-- The directories of a search path. -/
def searchList (value : String) : List String := (splitAt ':' value.toList).map String.ofList

/-- A name up to its last point, and what follows that point. A point in front is part of the
name, and two points alone are a name too. -/
def stemAndExtension (name : String) : String × Option String :=
  let cs := name.toList
  let after := (cs.reverse.takeWhile (· != '.')).reverse
  let before := cs.take (cs.length - after.length - 1)
  if name == ".." || after.length == cs.length || before.isEmpty then (name, none)
  else (String.ofList before, some (String.ofList after))

/-- The path with another extension, or the same where it does not end in a name. Of a name that
begins with two points, and has no other, the extension alone is taken away first, so that the two
points are left and stand for the directory above. -/
def withExtension (path extension : String) : String :=
  match (names path).getLast? with
  | none | some ".." => path
  | some name =>
    let above := (names path).dropLast
    let (stem, old) := stemAndExtension name
    let last := (words path).getLast? == some name && !endsInSlash path
    let body := if stem == "." && old.isSome && last then ".." else stem ++ "." ++ extension
    (if isAbsolute path then ofNames else "/".intercalate) (above ++ [body])

end Vigil.Path
