import Vigil.Script.Word
/-! Patterns of a shell: any run of characters, any one character, or one of a class. -/
namespace Vigil.Script

/-- A pattern's character, and whether it may mean more than itself. -/
abbrev Sign := Char × Bool

/-- The classes that have a name. -/
def inNamedClass (name : List Char) (c : Char) : Bool :=
  if name == "digit".toList then c.isDigit
  else if name == "alpha".toList then c.isAlpha
  else if name == "alnum".toList then c.isAlphanum
  else if name == "upper".toList then c.isUpper
  else if name == "lower".toList then c.isLower
  else if name == "space".toList then [' ', '\t', '\n', '\r', '\x0b', '\x0c'].contains c
  else if name == "blank".toList then isGap c
  else if name == "punct".toList then 0x20 < c.toNat && c.toNat < 0x7F && !c.isAlphanum
  else false

/-- The members of a class up to its bracket. -/
def classMembers (c : Char) : Nat → Bool → List Sign → Option (Bool × List Sign)
  | 0, _, _ => none
  | _ + 1, _, [] => none
  | n + 1, first, (x, special) :: r =>
    if x == ']' && special && !first then some (false, r)
    else
      let named := if x == '[' && (r.head?.map (·.1)) == some ':' then
          let name := ((r.drop 1).map (·.1)).takeWhile (· != ':')
          let r := r.drop (name.length + 2)
          if (r.head?.map (·.1)) == some ']' then some (name, r.drop 1) else none
        else none
      match named with
      | some (name, r) => (classMembers c n false r).map fun (is, r) => (is || inNamedClass name c, r)
      | none =>
        match r with
        | ('-', true) :: (y, high) :: r' =>
          if y == ']' && high then (classMembers c n false r).map fun (is, r) => (is || x == c, r)
          else (classMembers c n false r').map fun (is, r) =>
            (is || (x.toNat ≤ c.toNat && c.toNat ≤ y.toNat), r)
        | _ => (classMembers c n false r).map fun (is, r) => (is || x == c, r)

/-- Whether a class behind its bracket has the character, and what follows the class. -/
def inClass? (c : Char) (p : List Sign) : Option (Bool × List Sign) :=
  match p with
  | (x, true) :: r =>
    if x == '!' || x == '^' then (classMembers c r.length true r).map fun (is, r) => (!is, r)
    else classMembers c p.length true p
  | _ => classMembers c p.length true p

/-- Whether all of a text fits. The first argument bounds the depth. -/
def fitsWithin : Nat → List Sign → List Char → Bool
  | 0, _, _ => false
  | _ + 1, [], s => s.isEmpty
  | n + 1, (x, special) :: p, s =>
    if special && x == '*' then
      fitsWithin n p s || match s with
        | [] => false
        | _ :: r => fitsWithin n ((x, special) :: p) r
    else match s with
      | [] => false
      | c :: r =>
        if special && x == '?' then fitsWithin n p r
        else match if special && x == '[' then inClass? c p else none with
          | some (is, p) => is && fitsWithin n p r
          | none => x == c && fitsWithin n p r

def fits (p : List Sign) (s : List Char) : Bool := fitsWithin (p.length + s.length + 1) p s

def hasSpecial (p : List Sign) : Bool := p.any fun x => x.2 && ['*', '?', '['].contains x.1

/-- Takes away the shortest or the longest part in front that fits. -/
def cutFront (longest : Bool) (p : List Sign) (s : List Char) : List Char :=
  let lengths := List.range (s.length + 1)
  match (if longest then lengths.reverse else lengths).find? fun n => fits p (s.take n) with
  | some n => s.drop n
  | none => s

def cutBack (longest : Bool) (p : List Sign) (s : List Char) : List Char :=
  let lengths := List.range (s.length + 1)
  match (if longest then lengths else lengths.reverse).find? fun n => fits p (s.drop n) with
  | some n => s.take n
  | none => s

end Vigil.Script
