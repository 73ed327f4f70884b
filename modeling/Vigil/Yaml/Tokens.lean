import Vigil.Yaml.Token
/-! The tokens of a YAML text. Indentation becomes start and end tokens. Where a key may begin
its place is kept, so that a colon met later on the same line can put the key token there. -/
namespace Vigil.Yaml

/-- A place where a key may have begun. A required key has to be followed by its colon. -/
structure KeyPlace where
  required : Bool
  /-- How many tokens stand in front of it. -/
  count : Nat
  mark : Mark
deriving Repr

structure Lexer where
  cursor : Cursor
  /-- The tokens so far, the latest first. -/
  tokens : List Token := []
  indent : Int := -1
  outer : List Int := []
  keyAllowed : Bool := true
  /-- One entry for the block context and one for each open flow collection, innermost
  first. -/
  places : List (Option KeyPlace) := [none]

namespace Lexer

def inFlow (s : Lexer) : Bool := s.places.length != 1

def emit (s : Lexer) (t : Token) : Lexer := { s with tokens := t :: s.tokens }

/-- Puts a token behind the first `count`. -/
def insertAt (s : Lexer) (count : Nat) (t : Token) : Lexer :=
  let depth := s.tokens.length - count
  { s with tokens := s.tokens.take depth ++ t :: s.tokens.drop depth }

/-- Closes the block collections that reach further right than `column`. -/
def unrollTo (column : Int) (s : Lexer) : Lexer :=
  if s.inFlow then s
  else
    let closed := (s.indent :: s.outer).takeWhile (· > column)
    let left := (s.indent :: s.outer).drop closed.length
    { s with
      tokens := List.replicate closed.length .blockEnd ++ s.tokens
      indent := left.head?.getD (-1)
      outer := left.tail }

/-- Opens a block collection where `column` is further right than the one around it. -/
def rollTo (column count : Nat) (t : Token) (s : Lexer) : Lexer :=
  if s.inFlow || (column : Int) ≤ s.indent then s
  else { s.insertAt count t with indent := column, outer := s.indent :: s.outer }

/-- Gives up the innermost place of a key, unless its colon had to come. -/
def dropPlace (s : Lexer) : Option Lexer :=
  match s.places with
  | some p :: rest => if p.required then none else some { s with places := none :: rest }
  | _ => some s

def savePlace (s : Lexer) : Option Lexer :=
  if s.keyAllowed then do
    let s ← s.dropPlace
    let here : KeyPlace :=
      ⟨!s.inFlow && s.indent == s.cursor.mark.column, s.tokens.length, s.cursor.mark⟩
    some { s with places := some here :: s.places.tail }
  else some s

/-- A key is on one line and takes no more than 1024 bytes. -/
def isStale (m : Mark) (p : KeyPlace) : Bool :=
  p.mark.line < m.line || p.mark.offset + 1024 < m.offset

def dropStale (s : Lexer) : Option Lexer :=
  let stale : Option KeyPlace → Bool
    | some p => isStale s.cursor.mark p
    | none => false
  if s.places.any fun p => stale p && (p.map (·.required)).getD false then none
  else some { s with places := s.places.map fun p => if stale p then none else p }

/-- Passes blanks, comments and line ends. A tab is no blank where a key may begin. A byte order
mark may start any line. -/
def skipFrom (flow comment keyAllowed : Bool) (m : Mark) : List Char → Bool × Cursor
  | [] => (keyAllowed, ⟨m, []⟩)
  | c :: r =>
    if isBreak c then skipFrom flow false (keyAllowed || !flow) (m.newLine c) r
    else if comment then skipFrom flow true keyAllowed (m.next c) r
    else if c == ' ' || (c == '\t' && (flow || !keyAllowed)) ||
        (m.column == 0 && c == '\uFEFF') then
      skipFrom flow false keyAllowed (m.next c) r
    else if c == '#' then skipFrom flow true keyAllowed (m.next c) r
    else (keyAllowed, ⟨m, c :: r⟩)

def skip (s : Lexer) : Lexer :=
  let (keyAllowed, cursor) := skipFrom s.inFlow false s.keyAllowed s.cursor.mark s.cursor.rest
  { s with keyAllowed, cursor }

def passing (s : Lexer) (n : Nat) : Lexer := { s with cursor := s.cursor.take n }

def finish (s : Lexer) : Option (List Token) := do
  let s ← (s.unrollTo (-1)).dropPlace
  some s.tokens.reverse

def documentMark (t : Token) (s : Lexer) : Option Lexer := do
  let s ← (s.unrollTo (-1)).dropPlace
  some (({ s with keyAllowed := false }.emit t).passing 3)

def directive (s : Lexer) : Option Lexer := do
  let s ← (s.unrollTo (-1)).dropPlace
  let (t, cursor) ← Yaml.directive (s.cursor.take 1)
  some ({ s with keyAllowed := false, cursor }.emit t)

def openFlow (t : Token) (s : Lexer) : Option Lexer := do
  let s ← s.savePlace
  some (({ s with places := none :: s.places, keyAllowed := true }.emit t).passing 1)

def closeFlow (t : Token) (s : Lexer) : Option Lexer := do
  let s ← s.dropPlace
  let places := if s.inFlow then s.places.tail else s.places
  some (({ s with places, keyAllowed := false }.emit t).passing 1)

def flowEntry (s : Lexer) : Option Lexer := do
  let s ← s.dropPlace
  some (({ s with keyAllowed := true }.emit .flowEntry).passing 1)

def blockEntry (s : Lexer) : Option Lexer := do
  if !s.inFlow && !s.keyAllowed then none
  else
    let s ← (s.rollTo s.cursor.mark.column s.tokens.length .blockSeqStart).dropPlace
    some (({ s with keyAllowed := true }.emit .blockEntry).passing 1)

def keyMark (s : Lexer) : Option Lexer := do
  if !s.inFlow && !s.keyAllowed then none
  else
    let s ← (s.rollTo s.cursor.mark.column s.tokens.length .blockMapStart).dropPlace
    some (({ s with keyAllowed := !s.inFlow }.emit .key).passing 1)

/-- A colon makes a key of what began at the innermost place, or stands for an empty key. -/
def valueMark (s : Lexer) : Option Lexer := do
  let s ← match s.places with
    | some p :: rest =>
      let s := s.insertAt p.count .key
      let s := s.rollTo p.mark.column p.count .blockMapStart
      some { s with places := none :: rest, keyAllowed := false }
    | _ =>
      if !s.inFlow && !s.keyAllowed then none
      else
        let s := s.rollTo s.cursor.mark.column s.tokens.length .blockMapStart
        some { s with keyAllowed := !s.inFlow }
  some ((s.emit .value).passing 1)

def named (t : List Char → Token) (s : Lexer) : Option Lexer := do
  let s ← s.savePlace
  let (name, cursor) ← anchorName (s.cursor.take 1)
  some ({ s with keyAllowed := false, cursor }.emit (t name))

def tagged (s : Lexer) : Option Lexer := do
  let s ← s.savePlace
  let (handle, suffix, cursor) ← tag s.inFlow s.cursor
  some ({ s with keyAllowed := false, cursor }.emit (.tag handle suffix))

def least (s : Lexer) : Nat := (s.indent + 1).toNat

def blockScalar (folded : Bool) (s : Lexer) : Option Lexer := do
  let s ← s.dropPlace
  let (text, cursor) ← block folded s.least (s.cursor.take 1)
  some ({ s with keyAllowed := true, cursor }.emit (.scalar (if folded then .folded else .literal) text))

def quotedScalar (single : Bool) (s : Lexer) : Option Lexer := do
  let s ← s.savePlace
  let (text, cursor) ← quoted single (s.cursor.take 1)
  some ({ s with keyAllowed := false, cursor }.emit (.scalar .quoted text))

def plainScalar (s : Lexer) : Option Lexer := do
  let s ← s.savePlace
  let p ← plain s.inFlow s.least s.cursor
  some ({ s with keyAllowed := p.endsLine, cursor := p.after }.emit (.scalar .plain p.text))

/-- Characters that mean something else at the start of a token. -/
def isIndicator (c : Char) : Bool := "-?:,[]{}#&*!|>\x27\x22%@\x60".toList.contains c

def startsPlain (flow : Bool) (c : Char) (r : List Char) : Bool :=
  !(isIndicator c || isSpaceOrTab c) || (c == '-' && !(r.head?.any isSpaceOrTab)) ||
    (!flow && (c == '?' || c == ':') && !endsWord r)

/-- Reads the token that starts with `c`. -/
def token (c : Char) (r : List Char) (s : Lexer) : Option Lexer :=
  let atStart := s.cursor.mark.column == 0
  let s := s.unrollTo s.cursor.mark.column
  if atStart && c == '%' then s.directive
  else if atStart && isDocumentMark (c :: r) then
    s.documentMark (if c == '-' then .documentStart else .documentEnd)
  else if c == '[' then s.openFlow .flowSeqStart
  else if c == '{' then s.openFlow .flowMapStart
  else if c == ']' then s.closeFlow .flowSeqEnd
  else if c == '}' then s.closeFlow .flowMapEnd
  else if c == ',' then s.flowEntry
  else if c == '-' && endsWord r then s.blockEntry
  else if c == '?' && (s.inFlow || endsWord r) then s.keyMark
  else if c == ':' && (s.inFlow || endsWord r) then s.valueMark
  else if c == '*' then s.named .alias
  else if c == '&' then s.named .anchor
  else if c == '!' then s.tagged
  else if c == '|' && !s.inFlow then s.blockScalar false
  else if c == '>' && !s.inFlow then s.blockScalar true
  else if c == '\x27' then s.quotedScalar true
  else if c == '\x22' then s.quotedScalar false
  else if startsPlain s.inFlow c r then s.plainScalar
  else none

/-- Every token takes a character at least, so a text has no more tokens than characters. -/
def run : Nat → Lexer → Option (List Token)
  | 0, _ => none
  | left + 1, s => do
    let s ← s.skip.dropStale
    match s.cursor.rest with
    | [] => s.finish
    | c :: r => (s.token c r).bind (run left)

end Lexer

/-- `none` where the text is no YAML. -/
def tokens? (s : List Char) : Option (List Token) :=
  if s.all isAllowed then
    let s := normalizeBreaks s
    Lexer.run (s.length + 1) { cursor := { rest := s } }
  else none

end Vigil.Yaml
