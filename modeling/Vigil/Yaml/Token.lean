import Vigil.Text.Utf8
import Vigil.Yaml.Scalar
/-! Tokens, and the readers for the small ones: names, tags and directives. -/
namespace Vigil.Yaml

inductive Style where
  | plain | quoted | literal | folded
deriving DecidableEq, Repr

inductive Token where
  | version (major minor : Nat)
  | tagHandle (handle : List Char) (expansion : List UInt8)
  | documentStart | documentEnd
  | blockSeqStart | blockMapStart | blockEnd
  | flowSeqStart | flowSeqEnd | flowMapStart | flowMapEnd
  | blockEntry | flowEntry | key | value
  | alias (name : List Char)
  | anchor (name : List Char)
  | tag (handle : List Char) (suffix : List UInt8)
  | scalar (style : Style) (text : List Char)
deriving DecidableEq, Repr

/-- The cursor behind the next `n` characters; none of them may be a line break. -/
def Cursor.take (c : Cursor) (n : Nat) : Cursor :=
  ⟨(c.rest.take n).foldl Mark.next c.mark, c.rest.drop n⟩

/-- The characters in front that satisfy `p`; none of them may be a line break. -/
def Cursor.span (p : Char → Bool) (c : Cursor) : List Char × Cursor :=
  let taken := c.rest.takeWhile p
  (taken, c.take taken.length)

def Cursor.skipBlanks (c : Cursor) : Cursor := (c.span isSpaceOrTab).2

/-- What may stand right behind the name of an anchor or alias. -/
def endsName : List Char → Bool
  | [] => true
  | c :: _ => isSpaceOrTab c || isBreak c || c == '?' || c == ':' || c == ',' || c == ']' ||
      c == '}' || c == '%' || c == '@' || c == '\x60'

def anchorName (c : Cursor) : Option (List Char × Cursor) :=
  let (name, c) := c.span isWordChar
  if name.isEmpty || !endsName c.rest then none else some (name, c)

def isUriChar (verbatim : Bool) (c : Char) : Bool :=
  isWordChar c || (";/?:@&=+$.!~*()%\x27".toList.contains c) ||
    (verbatim && (c == ',' || c == '[' || c == ']'))

/-- How many bytes an escaped character takes, by its first one. -/
def escapedWidth? (b : Nat) : Option Nat :=
  if b < 0x80 then some 1
  else if b / 32 == 6 then some 2
  else if b / 16 == 14 then some 3
  else if b / 8 == 30 then some 4
  else none

/-- The bytes that a tag's text stands for, `done` holding them backwards. An escape stands for one
byte, and `pending` bytes of an escaped character are still to come. -/
def uriFrom (verbatim : Bool) (done : List UInt8) (pending : Nat) (m : Mark) :
    List Char → Option (List UInt8 × Cursor)
  | [] => if pending == 0 then some (done.reverse, ⟨m, []⟩) else none
  | c :: r =>
    if c == '%' then
      match r with
      | a :: b :: r => do
        let byte := (← digit? 16 a) * 16 + (← digit? 16 b)
        let pending ←
          if pending == 0 then (escapedWidth? byte).map (· - 1)
          else if byte / 64 == 2 then some (pending - 1)
          else none
        uriFrom verbatim (byte.toUInt8 :: done) pending (((m.next c).next a).next b) r
      | _ => none
    else if pending != 0 then none
    else if isUriChar verbatim c then uriFrom verbatim (c.toNat.toUInt8 :: done) 0 (m.next c) r
    else some (done.reverse, ⟨m, c :: r⟩)

def uri (verbatim : Bool) (c : Cursor) : Option (List UInt8 × Cursor) :=
  uriFrom verbatim [] 0 c.mark c.rest

/-- A tag reaches as far as its first zero byte. -/
def untilZero (bytes : List UInt8) : List UInt8 := bytes.takeWhile (· != 0)

/-- The tag of a lone mark. -/
def loneMark : List UInt8 := Utf8.encode ['!']

/-- `!`, `!!` or `!name!`; without a second mark, `!name` is what was read. -/
def tagHandle (c : Cursor) : Option (List Char × Cursor) :=
  match c.rest with
  | '!' :: _ =>
    let (name, c) := (c.take 1).span isWordChar
    match c.rest with
    | '!' :: _ => some ('!' :: (name ++ ['!']), c.take 1)
    | _ => some ('!' :: name, c)
  | _ => none

/-- The handle and suffix of a tag. A tag in angle brackets has no handle, and neither has the
lone mark. -/
def tag (flow : Bool) (c : Cursor) : Option (List Char × List UInt8 × Cursor) := do
  let (handle, suffix, c) ←
    match c.rest with
    | '!' :: '<' :: _ => do
      let (suffix, c) ← uri true (c.take 2)
      match c.rest with
      | '>' :: _ => if suffix.isEmpty then none else some ([], untilZero suffix, c.take 1)
      | _ => none
    | _ => do
      let (handle, c) ← tagHandle c
      let (suffix, c) ← uri false c
      if handle.length ≥ 2 && handle.getLast? == some '!' then
        if suffix.isEmpty then none else some (handle, untilZero suffix, c)
      else
        let whole := untilZero (Utf8.encode (handle.drop 1) ++ suffix)
        some (if whole.isEmpty then ([], loneMark, c) else (['!'], whole, c))
  if endsWord c.rest || (flow && c.rest.head? == some ',') then some (handle, suffix, c) else none

/-- At most nine digits. -/
def versionNumber (c : Cursor) : Option (Nat × Cursor) :=
  let (ds, c) := c.span Char.isDigit
  if ds.length ≤ 9 then (Text.digits? 10 ds).map (·, c) else none

/-- A directive behind its `%`, to the end of its line. -/
def directive (c : Cursor) : Option (Token × Cursor) := do
  let (name, c) := c.span isWordChar
  if name.isEmpty || !endsWord c.rest then none
  else
    let (token, c) ←
      if name == "YAML".toList then do
        let (major, c) ← versionNumber c.skipBlanks
        match c.rest with
        | '.' :: _ => do
          let (minor, c) ← versionNumber (c.take 1)
          some (Token.version major minor, c)
        | _ => none
      else if name == "TAG".toList then do
        let (handle, c) ← tagHandle c.skipBlanks
        if handle != ['!'] && (handle.length < 2 || handle.getLast? != some '!') then none
        else
          match c.rest with
          | b :: _ =>
            if !isSpaceOrTab b then none
            else do
              let (expansion, c) ← uri true c.skipBlanks
              if expansion.isEmpty || !endsWord c.rest then none
              else some (Token.tagHandle handle (untilZero expansion), c)
          | [] => none
      else none
    let c ← restOfLine false c.mark c.rest
    some (token, c)

end Vigil.Yaml
