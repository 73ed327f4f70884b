import Vigil.Text.Number
import Vigil.Yaml.Cursor
/-! Reading scalars: plain, quoted and block. Each reader starts behind the character that
announces the scalar and answers `none` where the text is refused. -/
namespace Vigil.Yaml

/-- The blanks and line breaks between two words of a scalar. Once a line has ended the blanks
no longer count. -/
structure Gap where
  blanks : List Char := []
  broken : Bool := false
  firstBreak : List Char := []
  laterBreaks : List Char := []

namespace Gap

def push (g : Gap) (c : Char) : Gap :=
  if isBreak c then
    if g.broken then { g with laterBreaks := g.laterBreaks ++ [c] }
    else { broken := true, firstBreak := [c] }
  else if g.broken then g
  else { g with blanks := g.blanks ++ [c] }

/-- A single line feed folds into a space; the first of several is dropped. -/
def fold (g : Gap) : List Char :=
  if !g.broken then g.blanks
  else if g.firstBreak == ['\n'] then
    if g.laterBreaks.isEmpty then [' '] else g.laterBreaks
  else g.firstBreak ++ g.laterBreaks

end Gap

def Mark.past (m : Mark) (c : Char) : Mark := if isBreak c then m.newLine c else m.next c

structure PlainScalar where
  text : List Char
  /-- A line ended after the last word. -/
  endsLine : Bool
  after : Cursor

/-- What ends a plain scalar inside a flow collection, besides a colon. -/
def isFlowMark (c : Char) : Bool := c == ',' || c == '[' || c == ']' || c == '{' || c == '}'

/-- Words of a plain scalar; `gap` is what came since the last one. `done` holds the text
backwards. Outside flow collections, lines left of `indent` belong to somebody else. -/
def plainFrom (flow : Bool) (indent : Nat) (done : List Char) (gap : Option Gap) (m : Mark) :
    List Char → Option PlainScalar
  | [] => some ⟨done.reverse, (gap.map (·.broken)).getD false, ⟨m, []⟩⟩
  | c :: r =>
    let stop := some ⟨done.reverse, (gap.map (·.broken)).getD false, ⟨m, c :: r⟩⟩
    if isSpaceOrTab c || isBreak c then
      let g := gap.getD {}
      if g.broken && m.column < indent && c == '\t' then none
      else plainFrom flow indent done (some (g.push c)) (m.past c) r
    else if gap.isSome && ((!flow && m.column < indent) || c == '#' ||
        (m.column == 0 && isDocumentMark (c :: r))) then stop
    else if flow && c == ':' && (r.head?.any fun d => isFlowMark d || d == '?') then none
    else if (c == ':' && endsWord r) || (flow && isFlowMark c) then stop
    else
      let folded := (gap.map Gap.fold).getD []
      plainFrom flow indent (c :: (folded.reverse ++ done)) none (m.next c) r

def plain (flow : Bool) (indent : Nat) (c : Cursor) : Option PlainScalar :=
  plainFrom flow indent [] none c.mark c.rest

/-- The escapes of one letter. -/
def escaped? (c : Char) : Option Char :=
  if c == '0' then some '\x00'
  else if c == 'a' then some '\x07'
  else if c == 'b' then some '\x08'
  else if c == 't' || c == '\t' then some '\t'
  else if c == 'n' then some '\n'
  else if c == 'v' then some '\x0b'
  else if c == 'f' then some '\x0c'
  else if c == 'r' then some '\r'
  else if c == 'e' then some '\x1b'
  else if c == ' ' || c == '\x22' || c == '/' || c == '\\' then some c
  else if c == 'N' then some '\u0085'
  else if c == '_' then some '\u00a0'
  else if c == 'L' then some '\u2028'
  else if c == 'P' then some '\u2029'
  else none

/-- The digits that follow `\x`, `\u` and `\U`. -/
def escapeDigits? (c : Char) : Option Nat :=
  if c == 'x' then some 2 else if c == 'u' then some 4 else if c == 'U' then some 8 else none

def scalarValue? (n : Nat) : Option Char :=
  if n < 0xD800 || (0xDFFF < n && n ≤ 0x10FFFF) then some (Char.ofNat n) else none

/-- A quoted scalar up to its closing quote. `code` counts the digits of an escape still to
come and holds its value so far. -/
def quotedFrom (single : Bool) (done : List Char) (gap : Option Gap) (code : Option (Nat × Nat))
    (m : Mark) : List Char → Option (List Char × Cursor)
  | [] => none
  | c :: r =>
    match code with
    | some (left, value) =>
      match digit? 16 c with
      | none => none
      | some d =>
        let value := value * 16 + d
        if left == 1 then
          match scalarValue? value with
          | none => none
          | some x => quotedFrom single (x :: done) none none (m.next c) r
        else quotedFrom single done none (some (left - 1, value)) (m.next c) r
    | none =>
      if isSpaceOrTab c || isBreak c then
        quotedFrom single done (some ((gap.getD {}).push c)) none (m.past c) r
      else if m.column == 0 && isDocumentMark (c :: r) then none
      else
        let done := ((gap.map Gap.fold).getD []).reverse ++ done
        if single then
          if c == '\x27' then
            match r with
            | '\x27' :: r => quotedFrom single ('\x27' :: done) none none ((m.next c).next c) r
            | _ => some (done.reverse, ⟨m.next c, r⟩)
          else quotedFrom single (c :: done) none none (m.next c) r
        else if c == '\x22' then some (done.reverse, ⟨m.next c, r⟩)
        else if c == '\\' then
          match r with
          | [] => none
          | e :: r =>
            if isBreak e then
              quotedFrom single done (some { broken := true }) none ((m.next c).past e) r
            else match escaped? e, escapeDigits? e with
              | some x, _ => quotedFrom single (x :: done) none none ((m.next c).next e) r
              | none, some digits =>
                quotedFrom single done none (some (digits, 0)) ((m.next c).next e) r
              | none, none => none
        else quotedFrom single (c :: done) none none (m.next c) r

def quoted (single : Bool) (c : Cursor) : Option (List Char × Cursor) :=
  quotedFrom single [] none none c.mark c.rest

/-- What becomes of the line breaks a block scalar ends in. -/
inductive Chomp where
  | strip | clip | keep
deriving DecidableEq, Repr

structure BlockHeader where
  chomp : Chomp := .clip
  /-- Zero leaves the indentation to the first line. -/
  indent : Nat := 0

def chompMark? (c : Char) : Option Chomp :=
  if c == '+' then some .keep else if c == '-' then some .strip else none

/-- The chomping mark and the indentation digit, each at most once, in either order. -/
def blockHeader (c : Cursor) : Option (BlockHeader × Cursor) :=
  let chompFrom (h : BlockHeader) (c : Cursor) : BlockHeader × Cursor :=
    match c.rest with
    | x :: r => match chompMark? x with
      | some mark => ({ h with chomp := mark }, ⟨c.mark.next x, r⟩)
      | none => (h, c)
    | [] => (h, c)
  let indentFrom (h : BlockHeader) (c : Cursor) : Option (BlockHeader × Cursor) :=
    match c.rest with
    | x :: r => match digit? 10 x with
      | some 0 => none
      | some d => some ({ h with indent := d }, ⟨c.mark.next x, r⟩)
      | none => some (h, c)
    | [] => some (h, c)
  match c.rest with
  | x :: _ =>
    if (chompMark? x).isSome then
      let (h, c) := chompFrom {} c
      indentFrom h c
    else (indentFrom {} c).map fun (h, c) => if h.indent == 0 then (h, c) else chompFrom h c
  | [] => some ({}, c)

/-- Blanks and a comment may stand behind a header or a directive, then the line must end. -/
def restOfLine (comment : Bool) (m : Mark) : List Char → Option Cursor
  | [] => some ⟨m, []⟩
  | c :: r =>
    if isBreak c then some ⟨m.newLine c, r⟩
    else if comment || isSpaceOrTab c then restOfLine comment (m.next c) r
    else if c == '#' then restOfLine true (m.next c) r
    else none

structure BlockState where
  done : List Char := []
  /-- Zero until the first line with content has shown it. -/
  indent : Nat
  deepest : Nat := 0
  lastBreak : List Char := []
  laterBreaks : List Char := []
  lineStartsBlank : Bool := false

namespace BlockState

/-- Joins a line that starts with `c` to those before it. Between two lines that start with no
blank a single line feed folds. -/
def startLine (folded : Bool) (s : BlockState) (c : Char) : BlockState :=
  let blank := isSpaceOrTab c
  let joined :=
    if folded && s.lastBreak == ['\n'] && !s.lineStartsBlank && !blank then
      if s.laterBreaks.isEmpty then [' '] else []
    else s.lastBreak
  { s with
    done := s.laterBreaks.reverse ++ joined.reverse ++ s.done
    lastBreak := []
    laterBreaks := []
    lineStartsBlank := blank }

def finish (chomp : Chomp) (s : BlockState) : List Char :=
  match chomp with
  | .strip => s.done.reverse
  | .clip => s.done.reverse ++ s.lastBreak
  | .keep => s.done.reverse ++ s.lastBreak ++ s.laterBreaks

end BlockState

/-- The lines of a block scalar. With `inLine` unset the indentation of a line is being
passed. -/
def blockFrom (folded : Bool) (chomp : Chomp) (least : Nat) (inLine : Bool) (s : BlockState)
    (m : Mark) : List Char → Option (List Char × Cursor)
  | [] => some (s.finish chomp, ⟨m, []⟩)
  | c :: r =>
    if inLine then
      if isBreak c then
        blockFrom folded chomp least false { s with lastBreak := [c] } (m.newLine c) r
      else blockFrom folded chomp least true { s with done := c :: s.done } (m.next c) r
    else
      let before := s.indent == 0 || m.column < s.indent
      if before && c == ' ' then
        blockFrom folded chomp least false { s with deepest := max s.deepest (m.column + 1) }
          (m.next c) r
      else if before && c == '\t' then none
      else if isBreak c then
        blockFrom folded chomp least false { s with laterBreaks := s.laterBreaks ++ [c] }
          (m.newLine c) r
      else
        let s := if s.indent == 0 then { s with indent := max s.deepest (max least 1) } else s
        if m.column == s.indent then
          let s := s.startLine folded c
          blockFrom folded chomp least true { s with done := c :: s.done } (m.next c) r
        else some (s.finish chomp, ⟨m, c :: r⟩)

/-- `least` is the smallest indentation a block may show here. -/
def block (folded : Bool) (least : Nat) (c : Cursor) : Option (List Char × Cursor) := do
  let (h, c) ← blockHeader c
  let c ← restOfLine false c.mark c.rest
  let indent := if h.indent == 0 then 0 else (least - 1) + h.indent
  blockFrom folded h.chomp least false { indent } c.mark c.rest

end Vigil.Yaml
