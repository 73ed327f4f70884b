import Vigil.Yaml.Cursor
import Vigil.Yaml.Plain
/-! Writing a text as the value of a key at the left margin. -/
namespace Vigil.Yaml

/-- All breaks that stand for one in a written text, before any is normalized. -/
def isRawBreak (c : Char) : Bool := isBreak c || c == '\r' || c == '\u0085'

/-- Characters that need no escape. -/
def isPrintable (c : Char) : Bool :=
  let n := c.toNat
  n == 10 || (0x20 ≤ n && n ≤ 0x7E) || (0xA0 ≤ n && n ≤ 0xFFFD && n != 0xFEFF) || 0x10000 ≤ n

def endsRawWord : List Char → Bool
  | [] => true
  | c :: _ => isSpaceOrTab c || isRawBreak c

/-- Whether a plain text that starts so would be taken for something else. -/
def startsAsMark (c : Char) (r : List Char) : Bool :=
  "#,[]{}&*!|>\x27\x22%@\x60".toList.contains c ||
    ((c == '?' || c == ':' || c == '-') && endsRawWord r)

/-- Whether a colon that ends a word, or a `#` that begins one, stands in the text. -/
def hasMarkFrom (afterBlank : Bool) : List Char → Bool
  | [] => false
  | c :: r =>
    (c == ':' && endsRawWord r) || (c == '#' && afterBlank) ||
      hasMarkFrom (isSpaceOrTab c || isRawBreak c) r

def hasMark : List Char → Bool
  | [] => false
  | c :: r => startsAsMark c r || hasMarkFrom (isSpaceOrTab c || isRawBreak c) r

def startsLikeDocument : List Char → Bool
  | '-' :: '-' :: '-' :: _ => true
  | '.' :: '.' :: '.' :: _ => true
  | _ => false

/-- Whether a character of the first kind stands right before one of the second. -/
def hasPair (first second : Char → Bool) : List Char → Bool
  | a :: b :: r => (first a && second b) || hasPair first second (b :: r)
  | _ => false

def isSpace (c : Char) : Bool := c == ' '

/-- A space before a line end, or a character that has to be escaped, leaves double quotes
alone. -/
def needsEscapes (s : List Char) : Bool := s.any (!isPrintable ·) || hasPair isSpace isRawBreak s

def plainAllowed (s : List Char) : Bool :=
  !(needsEscapes s || s.any isRawBreak || startsLikeDocument s || hasMark s ||
    s.head?.any isSpace || s.getLast?.any isSpace)

def singleAllowed (s : List Char) : Bool := !(needsEscapes s || hasPair isRawBreak isSpace s)

def blockAllowed (s : List Char) : Bool :=
  !(s.isEmpty || needsEscapes s || s.getLast?.any isSpace)

inductive Form where
  | plain | single | double | literal
deriving DecidableEq, Repr

/-- Text of several lines is written line by line where that is allowed; other text is quoted
only where it has to be. -/
def formOf (s : List Char) : Form :=
  if s.contains '\n' then if blockAllowed s then .literal else .double
  else if !readsOtherwise s && plainAllowed s then .plain
  else if singleAllowed s then .single
  else .double

def upperHex (width n : Nat) : List Char :=
  let ds := (Nat.toDigits 16 n).map Char.toUpper
  List.replicate (width - ds.length) '0' ++ ds

def escapeChar (c : Char) : List Char :=
  let n := c.toNat
  if n == 0 then ['0']
  else if n == 7 then ['a']
  else if n == 8 then ['b']
  else if n == 9 then ['t']
  else if n == 10 then ['n']
  else if n == 11 then ['v']
  else if n == 12 then ['f']
  else if n == 13 then ['r']
  else if n == 27 then ['e']
  else if n == 0x22 || n == 0x5C then [c]
  else if n == 0x85 then ['N']
  else if n == 0x2028 then ['L']
  else if n == 0x2029 then ['P']
  else if n ≤ 0xFF then 'x' :: upperHex 2 n
  else if n ≤ 0xFFFF then 'u' :: upperHex 4 n
  else 'U' :: upperHex 8 n

def doubleBody (s : List Char) : List Char :=
  s.flatMap fun c =>
    if !isPrintable c || isRawBreak c || c == '\x22' || c == '\\' then '\\' :: escapeChar c
    else [c]

/-- Behind a line break the text goes on two columns in; a quote is written twice. -/
def singleBody (broken : Bool) : List Char → List Char
  | [] => if broken then [' ', ' '] else []
  | c :: r =>
    if isRawBreak c then c :: singleBody true r
    else (if broken then [' ', ' '] else []) ++
      (if c == '\x27' then ['\x27', '\x27'] else [c]) ++ singleBody false r

/-- Each line that is not empty goes two columns in. -/
def literalBody (atStart : Bool) : List Char → List Char
  | [] => []
  | c :: r =>
    if isRawBreak c then c :: literalBody true r
    else (if atStart then [' ', ' '] else []) ++ c :: literalBody false r

/-- The indentation is given where the first line would hide it; then what happens to the last
line breaks. -/
def literalHints (s : List Char) : List Char :=
  let startsOpen := s.head?.any fun c => isSpace c || isRawBreak c
  let last := s.getLast?.any isRawBreak
  let both := s.length == 1 || (s.dropLast.getLast?.any isRawBreak)
  (if startsOpen then ['2'] else []) ++
    (if !last then ['-'] else if both then ['+'] else [])

/-- The text behind `key: `, to the end of its last line. -/
def valueText (s : List Char) : List Char :=
  match formOf s with
  | .plain => s ++ ['\n']
  | .single => '\x27' :: (singleBody false s ++ ['\x27', '\n'])
  | .double => '\x22' :: (doubleBody s ++ ['\x22', '\n'])
  | .literal =>
    '|' :: (literalHints s ++ '\n' :: literalBody true s) ++
      (if s.getLast?.any isRawBreak then [] else ['\n'])

end Vigil.Yaml
