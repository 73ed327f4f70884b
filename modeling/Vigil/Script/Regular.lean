import Vigil.Script.Pattern
/-! Regular expressions, of the basic and of the extended kind. -/
namespace Vigil.Script

inductive Regular where
  | one (accepts : Char → Bool)
  | atStart | atEnd
  | nothing
  | both (a b : Regular)
  | either (a b : Regular)
  /-- So many times at least, and at most if there is a limit. -/
  | many (least : Nat) (most : Option Nat) (e : Regular)
  /-- What it matches can be called for by its number. -/
  | group (k : Nat) (e : Regular)
  | same (k : Nat)

namespace Regular

/-- A class of characters behind its bracket. -/
def class? (s : List Char) : Option ((Char → Bool) × List Char) :=
  let signs : List Sign := s.map fun c => (c, c != '!')
  (inClass? 'a' signs).map fun (_, rest) =>
    (fun c => ((inClass? c signs).map (·.1)).getD false, rest.map (·.1))

/-- Two bounds with a comma between. -/
def bounds? (close s : List Char) : Option (Nat × Option Nat × List Char) :=
  let low := s.takeWhile Char.isDigit
  let s := s.drop low.length
  let (high, s) : Option (List Char) × List Char := match s with
    | ',' :: r => (some (r.takeWhile Char.isDigit), r.dropWhile Char.isDigit)
    | s => (none, s)
  if !close.isPrefixOf s then none
  else
    let least := (Text.digits? 10 low).getD 0
    some (least, high.elim (some least) (Text.digits? 10), s.drop close.length)

/-- How often what stands in front may come, by the sign behind it. -/
def times? (extended : Bool) (s : List Char) : Option (Nat × Option Nat × List Char) :=
  match s with
  | '*' :: r => some (0, none, r)
  | '+' :: r => if extended then some (1, none, r) else none
  | '?' :: r => if extended then some (0, some 1, r) else none
  | '\x7b' :: r => if extended then bounds? ['\x7d'] r else none
  | '\\' :: '+' :: r => if extended then none else some (1, none, r)
  | '\\' :: '?' :: r => if extended then none else some (0, some 1, r)
  | '\\' :: '\x7b' :: r => if extended then none else bounds? ['\\', '\x7d'] r
  | _ => none

def isWordChar (c : Char) : Bool := c.isAlphanum || c == '_'

/-- What a letter stands for behind a backslash. -/
def escaped (c : Char) : Regular :=
  match c with
  | 'n' => .one (· == '\n')
  | 't' => .one (· == '\t')
  | 'w' => .one isWordChar
  | 'W' => .one (!isWordChar ·)
  | 's' => .one isSpace
  | 'S' => .one (!isSpace ·)
  | _ => if c.isDigit && c != '0' then .same (c.toNat - 48) else .one (· == c)

mutual

def alternatives (extended : Bool) : Nat → List Char → Option (Regular × List Char)
  | 0, _ => none
  | n + 1, s => do
    let (a, s) ← joined extended n true s
    match s with
    | '|' :: r =>
      if extended then (alternatives extended n r).map fun (b, s) => (.either a b, s) else some (a, s)
    | '\\' :: '|' :: r =>
      if extended then some (a, s) else (alternatives extended n r).map fun (b, s) => (.either a b, s)
    | _ => some (a, s)

/-- Parts one behind the other; a star at the start stands for itself. -/
def joined (extended : Bool) : Nat → Bool → List Char → Option (Regular × List Char)
  | 0, _, _ => none
  | _ + 1, _, [] => some (.nothing, [])
  | n + 1, first, c :: r =>
    let closes := if extended then c == '|' || c == ')'
      else c == '\\' && (r.head? == some '|' || r.head? == some ')')
    if closes then some (.nothing, c :: r)
    else do
      let (e, s) ← part extended n first (c :: r)
      let (e, s) := match times? extended s with
        | some (least, most, s) => (many least most e, s)
        | none => (e, s)
      let (rest, s) ← joined extended n (c == '^' && first) s
      some (.both e rest, s)

def part (extended : Bool) : Nat → Bool → List Char → Option (Regular × List Char)
  | 0, _, _ => none
  | _ + 1, _, [] => none
  | n + 1, first, c :: r =>
    let group (s : List Char) (close : List Char) : Option (Regular × List Char) := do
      let (e, s) ← alternatives extended n s
      if close.isPrefixOf s then some (.group 0 e, s.drop close.length) else none
    if c == '.' then some (.one fun _ => true, r)
    else if c == '[' then (class? r).map fun (accepts, s) => (.one accepts, s)
    else if c == '^' && (first || extended) then some (.atStart, r)
    else if c == '$' && (r.isEmpty || extended) then some (.atEnd, r)
    else if c == '(' && extended then group r [')']
    else if c == '\\' then
      match r with
      | [] => none
      | d :: r => if d == '(' && !extended then group r ['\\', ')'] else some (escaped d, r)
    else some (.one (· == c), r)

end

/-- The groups get their numbers in the order in which they are opened. -/
def numbered (k : Nat) : Regular → Regular × Nat
  | .both a b =>
    let (a, k) := numbered k a
    let (b, k) := numbered k b
    (.both a b, k)
  | .either a b =>
    let (a, k) := numbered k a
    let (b, k) := numbered k b
    (.either a b, k)
  | .many least most e =>
    let (e, k) := numbered k e
    (.many least most e, k)
  | .group _ e =>
    let (e, next) := numbered (k + 1) e
    (.group k e, next)
  | e => (e, k)

def ofText? (extended : Bool) (s : List Char) : Option Regular :=
  match alternatives extended (4 * s.length + 4) s with
  | some (e, []) => some (numbered 1 e).1
  | _ => none

def hasGroup (e : Regular) : Bool := (numbered 1 e).2 != 1

/-- The text behind a part that fits, and what its groups are. -/
structure Match where
  rest : List Char
  groups : List (Nat × List Char) := []

/-- The ways in which a part in front fits. The first argument bounds the depth. -/
def matches_ : Nat → Regular → Bool → Match → List Match
  | 0, _, _, _ => []
  | n + 1, e, start, m =>
    let go (e : Regular) (r : Match) : List Match :=
      matches_ n e (start && r.rest.length == m.rest.length) r
    match e with
    | .nothing => [m]
    | .one accepts => match m.rest with
      | c :: r => if accepts c then [{ m with rest := r }] else []
      | [] => []
    | .atStart => if start then [m] else []
    | .atEnd => if m.rest.isEmpty then [m] else []
    | .both a b => (go a m).flatMap (go b)
    | .either a b => go a m ++ go b m
    | .many least most e =>
      let further := if most == some 0 then [] else
        ((go e m).filter fun r => r.rest.length < m.rest.length || 0 < least).flatMap
          (go (.many (least - 1) (most.map (· - 1)) e))
      further ++ (if least == 0 then [m] else [])
    | .group k e => (go e m).map fun r =>
      { r with groups := (k, m.rest.take (m.rest.length - r.rest.length)) :: r.groups }
    | .same k =>
      let s := (m.groups.lookup k).getD []
      if s.isPrefixOf m.rest then [{ m with rest := m.rest.drop s.length }] else []

def depth (s : List Char) : Nat := 4 * s.length + 200

def all (e : Regular) (start : Bool) (s : List Char) : List Match :=
  matches_ (depth s) e start { rest := s }

/-- Of the ways to fit, one that leaves the least. -/
def longest? (e : Regular) (start : Bool) (s : List Char) : Option Match :=
  (e.all start s).foldl (fun best m =>
    if best.all fun b => m.rest.length < b.rest.length then some m else best) none

/-- Whether a part of a line fits. -/
def isIn (e : Regular) (s : List Char) : Bool :=
  (List.range (s.length + 1)).any fun k => !(e.all (k == 0) (s.drop k)).isEmpty

/-- A text with its matches in it: what stands before each one, how it fits, and what it is. -/
structure Found where
  before : List Char
  fit : List Char
  groups : List (Nat × List Char)

/-- The first part that fits, with the text behind it. A part that is empty does not stand where
the one before ends. -/
def first? (e : Regular) (emptyToo : Bool) : Bool → List Char → List Char → Option (Found × List Char)
  | start, before, s =>
    match (e.longest? start s).filter fun m => emptyToo || !before.isEmpty || m.rest.length < s.length with
    | some m => some (⟨before.reverse, s.take (s.length - m.rest.length), m.groups⟩, m.rest)
    | none => match s with
      | [] => none
      | c :: r => first? e emptyToo false (c :: before) r

/-- All parts that fit, one behind the other, and what is left. -/
def findAll (e : Regular) : Nat → Bool → Bool → List Char → List Found × List Char
  | 0, _, _, s => ([], s)
  | n + 1, start, emptyToo, s =>
    match e.first? emptyToo start [] s with
    | none => ([], s)
    | some (f, r) =>
      let (fs, last) := findAll e n false false r
      (f :: fs, last)

end Regular

end Vigil.Script
