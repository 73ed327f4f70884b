import Vigil.Files.Path
import Vigil.Script.Job
/-! Commands that turn lines into lines. -/
namespace Vigil.Script.Filters

def linesOf (s : List Char) : List (List Char) :=
  let ls := Path.splitAt '\n' s
  if ls.getLast? == some [] then ls.dropLast else ls

def unlines (ls : List (List Char)) : List Char := ls.flatMap (· ++ ['\n'])

/-- How many words there are, of which `inWord` may have begun one. -/
def countWords (inWord : Bool) : List Char → Nat
  | [] => 0
  | c :: r => if isSpace c then countWords false r else (if inWord then 0 else 1) + countWords true r

def padded (width : Nat) (n : Nat) : List Char :=
  let s := Text.decimal n
  List.replicate (width - s.length) ' ' ++ s

/-- The counts of a text: lines, words, characters and bytes, as far as they are asked for. -/
def counts (asked : List Char) (s : List Char) : List Nat :=
  let asked := if asked.isEmpty then ['l', 'w', 'c'] else asked
  (if asked.contains 'l' then [s.count '\n'] else []) ++
    (if asked.contains 'w' then [countWords false s] else []) ++
    (if asked.contains 'm' then [s.length] else []) ++
    (if asked.contains 'c' then [(Utf8.encode s).length] else [])

/-- Ranges of positions from one on, such as `1,3-5,7-`. -/
def ranges? (s : List Char) : Option (List (Nat × Option Nat)) :=
  (Path.splitAt ',' s).mapM fun part =>
    match Path.splitAt '-' part with
    | [a] => (Text.digits? 10 a).map fun n => (n, some n)
    | [a, b] => do
      let low ← if a.isEmpty then some 1 else Text.digits? 10 a
      if b.isEmpty then some (low, none) else (Text.digits? 10 b).map fun n => (low, some n)
    | _ => none

def isIn (ranges : List (Nat × Option Nat)) (k : Nat) : Bool :=
  ranges.any fun r => r.1 ≤ k && r.2.all (k ≤ ·)

/-- The members at the positions asked for. -/
def pick {α : Type} (ranges : List (Nat × Option Nat)) (xs : List α) : List α :=
  ((List.range xs.length).zip xs).filterMap fun x => if isIn ranges (x.1 + 1) then some x.2 else none

/-- The fields of each line; one without the delimiter stays whole. -/
def cutFields (delimiter : Char) (ranges : List (Nat × Option Nat)) (onlyCut : Bool)
    (ls : List (List Char)) : List (List Char) :=
  ls.filterMap fun l =>
    if l.contains delimiter then some ([delimiter].intercalate (pick ranges (Path.splitAt delimiter l)))
    else if onlyCut then none else some l

/-- A set of characters with ranges, classes and escapes written out. -/
def charSet : Nat → List Char → List Char
  | 0, _ => []
  | _, [] => []
  | n + 1, '\\' :: c :: r =>
    (if c == 'n' then '\n' else if c == 't' then '\t' else if c == 'r' then '\r' else c) :: charSet n r
  | n + 1, '[' :: ':' :: r =>
    let name := r.takeWhile (· != ':')
    let all := (List.range 128).map Char.ofNat
    all.filter (inNamed name) ++ charSet n (r.drop (name.length + 2))
  | n + 1, a :: '-' :: b :: r =>
    (List.range (b.toNat + 1 - a.toNat)).map (fun k => Char.ofNat (a.toNat + k)) ++ charSet n r
  | n + 1, c :: r => c :: charSet n r
where
  inNamed (name : List Char) (c : Char) : Bool :=
    if name == "digit".toList then c.isDigit
    else if name == "alpha".toList then c.isAlpha
    else if name == "alnum".toList then c.isAlphanum
    else if name == "upper".toList then c.isUpper
    else if name == "lower".toList then c.isLower
    else if name == "space".toList then isSpace c
    else false

/-- Replaces the characters of one set by those of another, the last one standing for all that
have none. -/
def exchange (old new : List Char) (s : List Char) : List Char :=
  s.map fun c =>
    match (old.zip (List.range old.length)).lookup c with
    | some k => (new[k]?).getD (new.getLast?.getD c)
    | none => c

/-- Of several equal characters of a set in a row the first one stays. -/
def squeeze (set : List Char) (last : Option Char) : List Char → List Char
  | [] => []
  | c :: r => if last == some c && set.contains c then squeeze set last r else c :: squeeze set (some c) r

def isBelow (a b : List Char) : Bool := decide (String.ofList a ≤ String.ofList b)

/-- The number that a line begins with. -/
def leadingNumber (s : List Char) : Int :=
  match s.dropWhile isGap with
  | '-' :: r => -(((Text.digits? 10 (r.takeWhile Char.isDigit)).getD 0 : Nat) : Int)
  | r => ((Text.digits? 10 (r.takeWhile Char.isDigit)).getD 0 : Nat)

/-- What lines are sorted by. -/
structure SortKey where
  options : List Char := []
  separator : Option Char := none
  /-- The first field of the key, and the last one if there is one. -/
  first : Nat := 1
  last : Option Nat := none

/-- A key such as `2,3n`. -/
def SortKey.ofText (options : List Char) (separator : Option Char) (s : List Char) : SortKey :=
  match ranges? ((s.filter fun c => c.isDigit || c == ',').map fun c => if c == ',' then '-' else c) with
  | some ((k, last) :: _) =>
    ⟨options ++ s.filter Char.isAlpha, separator, k, if s.contains ',' then last else none⟩
  | _ => { options, separator }

/-- The fields of a line; without a separator each begins with the blanks in front of it. -/
def fieldsBy (separator : Option Char) (s : List Char) : List (List Char) :=
  match separator with
  | some c => Path.splitAt c s
  | none => blankFields (s.length + 1) s
where
  blankFields : Nat → List Char → List (List Char)
    | 0, _ => []
    | _, [] => []
    | n + 1, s =>
      let gap := s.takeWhile isGap
      let field := gap ++ (s.drop gap.length).takeWhile (!isGap ·)
      field :: blankFields n (s.drop field.length)

def SortKey.text (k : SortKey) (s : List Char) : List Char :=
  if k.first ≤ 1 && k.last.isNone then s
  else
    let fields := (fieldsBy k.separator s).drop (k.first - 1)
    let fields := k.last.elim fields fun n => fields.take (n + 1 - k.first)
    (k.separator.toList).intercalate fields

def sorted (k : SortKey) (ls : List (List Char)) : List (List Char) :=
  let has (c : Char) := k.options.contains c
  let text (s : List Char) : List Char :=
    let s := k.text s
    let s := if has 'b' then s.dropWhile isGap else s
    if has 'f' then s.map Char.toUpper else s
  let before (a b : List Char) : Bool :=
    let (x, y) := (text a, text b)
    let order (less more : Bool) (next : Bool) : Bool :=
      if less then !has 'r' else if more then has 'r' else next
    let last : Bool := has 's' || order (a != b && isBelow a b) (a != b && isBelow b a) true
    if has 'n' then order (leadingNumber x < leadingNumber y) (leadingNumber y < leadingNumber x) last
    else order (x != y && isBelow x y) (x != y && isBelow y x) last
  let ls := ls.mergeSort before
  if !has 'u' then ls
  else (ls.foldl (fun (kept : List (List Char)) l =>
    let same : Bool := kept.head?.any fun m =>
      if has 'n' then leadingNumber (text m) == leadingNumber (text l) else text m == text l
    if same then kept else l :: kept) []).reverse

/-- Equal lines in a row, with how many there are. -/
def runs : List (List Char) → List (Nat × List Char)
  | [] => []
  | l :: r =>
    match runs r with
    | (n, m) :: rest => if l == m then (n + 1, m) :: rest else (1, l) :: (n, m) :: rest
    | [] => [(1, l)]

def uniq (options : List Char) (ls : List (List Char)) : List (List Char) :=
  ((runs ls).filter fun r =>
    (!options.contains 'd' || 1 < r.1) && (!options.contains 'u' || r.1 == 1)).map fun r =>
      if options.contains 'c' then padded 7 r.1 ++ ' ' :: r.2 else r.2

/-- The first or the last members. A sign turns the count around: all but the last ones, and those
from one on. -/
def head {α : Type} (count : List Char) (xs : List α) : List α :=
  match count with
  | '-' :: r => xs.take (xs.length - (Text.digits? 10 r).getD 0)
  | _ => xs.take ((Text.digits? 10 count).getD 10)

def tail {α : Type} (count : List Char) (xs : List α) : List α :=
  match count with
  | '+' :: r => xs.drop ((Text.digits? 10 r).getD 1 - 1)
  | _ => xs.drop (xs.length - (Text.digits? 10 count).getD 10)

/-- Lines behind their numbers; where `all` does not hold, empty ones have none. -/
def numbered (all : Bool) (gap : List Char) (ls : List (List Char)) : List (List Char) :=
  (ls.foldl (fun (k, out) l =>
    if all || !l.isEmpty then (k + 1, out ++ [padded 6 k ++ gap ++ l])
    else (k, out ++ [l])) (1, [])).2

/-- Lines one behind the other, with the delimiters in turn between them. -/
def pasted (delimiters : List Char) : Nat → List (List Char) → List Char
  | _, [] => []
  | _, [l] => l
  | k, l :: rest =>
    let mark := if delimiters.isEmpty then [] else ((delimiters[k % delimiters.length]?).toList)
    l ++ mark ++ pasted delimiters (k + 1) rest

/-- A line in pieces of a width. -/
def folded (width : Nat) : Nat → List Char → List (List Char)
  | 0, s => [s]
  | n + 1, s =>
    if s.length ≤ width then [s] else s.take width :: folded width n (s.drop width)

end Vigil.Script.Filters
