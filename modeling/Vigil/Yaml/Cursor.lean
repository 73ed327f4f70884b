/-! Places in a YAML text, and the characters its grammar tells apart. -/
namespace Vigil.Yaml

/-- How many bytes of UTF-8 have been passed, and the line and column reached, all from zero.
Columns count characters. -/
structure Mark where
  offset : Nat := 0
  line : Nat := 0
  column : Nat := 0
deriving DecidableEq, Repr

/-- The place behind a character that ends no line. -/
def Mark.next (m : Mark) (c : Char) : Mark := ⟨m.offset + c.utf8Size, m.line, m.column + 1⟩

/-- The place behind a line break. -/
def Mark.newLine (m : Mark) (c : Char) : Mark := ⟨m.offset + c.utf8Size, m.line + 1, 0⟩

structure Cursor where
  mark : Mark := {}
  rest : List Char
deriving DecidableEq, Repr

def isSpaceOrTab (c : Char) : Bool := c == ' ' || c == '\t'

/-- After `normalizeBreaks` these are the line breaks that are left. -/
def isBreak (c : Char) : Bool := c == '\n' || c == '\u2028' || c == '\u2029'

/-- What ends a word: the end of the text, a space, a tab or a line break. -/
def endsWord : List Char → Bool
  | [] => true
  | c :: _ => isSpaceOrTab c || isBreak c

/-- The characters of names: digits, ASCII letters, hyphen and underscore. -/
def isWordChar (c : Char) : Bool := c.isAlphanum || c == '-' || c == '_'

/-- What may stand in a YAML text at all. -/
def isAllowed (c : Char) : Bool :=
  let n := c.toNat
  n == 9 || n == 10 || n == 13 || (0x20 ≤ n && n ≤ 0x7E) || n == 0x85 ||
    (0xA0 ≤ n && n ≤ 0xFFFD) || 0x10000 ≤ n

/-- Every break but the two separators of Unicode reads as a line feed. -/
def normalizeBreaks : List Char → List Char
  | [] => []
  | '\r' :: '\n' :: r => '\n' :: normalizeBreaks r
  | c :: r => (if c == '\r' || c == '\u0085' then '\n' else c) :: normalizeBreaks r

/-- `---` or `...` standing as a word of its own. -/
def isDocumentMark : List Char → Bool
  | '-' :: '-' :: '-' :: r => endsWord r
  | '.' :: '.' :: '.' :: r => endsWord r
  | _ => false

end Vigil.Yaml
