import Vigil.Json.Real
import Vigil.Script.Word
/-! The commands that print: escapes and formats. -/
namespace Vigil.Script

namespace Printing

/-- The escapes of one letter. -/
def escape? (c : Char) : Option Char :=
  ([('a', '\x07'), ('b', '\x08'), ('f', '\x0c'), ('n', '\n'), ('r', '\r'), ('t', '\t'), ('v', '\x0b'),
    ('\\', '\\')] : List (Char × Char)).lookup c

/-- A character by its octal digits, at most so many. -/
def octal (most : Nat) (s : List Char) : Char × List Char :=
  let ds := (s.take most).takeWhile fun c => (digit? 8 c).isSome
  (Char.ofNat ((Text.digits? 8 ds).getD 0 % 256), s.drop ds.length)

/-- Replaces escapes. An octal code has a zero in front if `zero` asks for it. Some escapes end
the whole output, which is told. -/
def escapes (zero : Bool) : Nat → List Char → List Char × Bool
  | 0, s => (s, false)
  | _, [] => ([], false)
  | n + 1, '\\' :: c :: r =>
    let more (x : List Char) (r : List Char) :=
      let (s, ends) := escapes zero n r
      (x ++ s, ends)
    if c == 'c' then ([], true)
    else if c == '0' && zero then
      let (x, r) := octal 3 r
      more [x] r
    else if (digit? 8 c).isSome && !zero then
      let (x, r) := octal 3 (c :: r)
      more [x] r
    else match escape? c with
      | some x => more [x] r
      | none => if c == '\x22' && !zero then more [c] r else more ['\\', c] r
  | n + 1, c :: r =>
    let (s, ends) := escapes zero n r
    (c :: s, ends)

/-- How a value is set in a format. -/
structure Field where
  flags : List Char := []
  width : Nat := 0
  precision : Option Nat := none

def Field.pad (f : Field) (zeros : Bool) (s : List Char) : List Char :=
  let gap := f.width - s.length
  if f.flags.contains '-' then s ++ List.replicate gap ' '
  else if zeros && f.flags.contains '0' && f.precision.isNone then
    match s with
    | '-' :: r => '-' :: List.replicate gap '0' ++ r
    | _ => List.replicate gap '0' ++ s
  else List.replicate gap ' ' ++ s

/-- A number in front of a text, and whether it is all of the text. -/
structure Numeral where
  value : Int
  isAll : Bool

/-- Digits in front, with a mark of their base. -/
def natural (s : List Char) : Nat × List Char :=
  let among (base : Nat) (s : List Char) : Nat × List Char :=
    let ds := s.takeWhile fun c => (digit? base c).isSome
    ((Text.digits? base ds).getD 0, s.drop ds.length)
  match s with
  | '0' :: 'x' :: r | '0' :: 'X' :: r =>
    if r.head?.any fun c => (digit? 16 c).isSome then among 16 r else (0, s.drop 1)
  | '0' :: r => among 8 ('0' :: r)
  | _ => among 10 s

/-- A number as it is written for a format; a quote in front takes the character's code. -/
def number (s : List Char) : Numeral :=
  match s with
  | [] => ⟨0, true⟩
  | ['\x27'] | ['\x22'] => ⟨0, true⟩
  | '\x27' :: c :: _ | '\x22' :: c :: _ => ⟨c.toNat, true⟩
  | _ =>
    let s := s.dropWhile isGap
    let (negative, body) := match s with
      | '-' :: r => (true, r)
      | '+' :: r => (false, r)
      | r => (false, r)
    let (n, rest) := natural body
    ⟨if negative then -(n : Int) else n, rest.isEmpty && body.head?.any Char.isDigit⟩

/-- The digits of a number in a base, which counts from 2^64 down where it is negative. -/
def unsigned (base : Nat) (n : Int) : List Char := Nat.toDigits base (n % 18446744073709551616).toNat

def Field.sign (f : Field) (negative : Bool) : List Char :=
  if negative then ['-'] else if f.flags.contains '+' then ['+']
  else if f.flags.contains ' ' then [' '] else []

def Field.integer (f : Field) (n : Int) (digits : List Char) : List Char :=
  let digits := List.replicate ((f.precision.getD 1) - digits.length) '0' ++ digits
  f.pad true (f.sign (n < 0) ++ digits)

/-- A number that may have a fraction: its sign, and the fraction of integers that it is. -/
structure Fraction where
  negative : Bool := false
  num : Nat := 0
  den : Nat := 1

/-- A decimal with an optional power of ten, as the double next to it. -/
def fraction (s : List Char) : Fraction × Bool :=
  let (negative, body) := match s with
    | '-' :: r => (true, r)
    | '+' :: r => (false, r)
    | r => (false, r)
  let whole := body.takeWhile Char.isDigit
  let rest := body.drop whole.length
  let (places, rest) : List Char × List Char := match rest with
    | '.' :: r => (r.takeWhile Char.isDigit, r.dropWhile Char.isDigit)
    | r => ([], r)
  let (power, rest) : Int × List Char := match rest with
    | e :: r =>
      let (sign, r) : Int × List Char := match r with
        | '-' :: r => (-1, r)
        | '+' :: r => (1, r)
        | r => (1, r)
      let ds := r.takeWhile Char.isDigit
      if (e == 'e' || e == 'E') && !ds.isEmpty then
        (sign * (((Text.digits? 10 ds).getD 0 : Nat) : Int), r.drop ds.length)
      else (0, rest)
    | [] => (0, [])
  let digits := (Text.digits? 10 (whole ++ places)).getD 0
  let (num, den) := Json.scale 10 (power - places.length) digits 1
  let (num, den) := if num == 0 then (0, 1) else match Json.Double.nearest? num den with
    | some x => Json.scale 2 x.power x.mantissa 1
    | none => (num, den)
  (⟨negative, num, den⟩, rest.isEmpty && (s.isEmpty || !(whole ++ places).isEmpty))

namespace Fraction

/-- With so many places behind the point. -/
def fixed (x : Fraction) (places : Nat) : List Char :=
  let digits := Text.paddedDecimal (places + 1) (Json.roundEven (x.num * Nat.pow 10 places) x.den)
  let front := digits.length - places
  digits.take front ++ (if places == 0 then [] else '.' :: digits.drop front)

/-- The power of ten of the first of `places + 1` digits, and the digits. -/
def digits (x : Fraction) (places : Nat) : Int × List Char :=
  if x.num == 0 then (0, List.replicate (places + 1) '0')
  else
    let power := Json.Double.magnitude x.num x.den - 1
    let (n, d) := Json.scale 10 ((places : Int) - power) x.num x.den
    let ds := Text.decimal (Json.roundEven n d)
    if places + 1 < ds.length then (power + 1, ds.dropLast) else (power, ds)

def withPower (power : Int) (digits : List Char) : List Char :=
  digits.take 1 ++ (if digits.length ≤ 1 then [] else '.' :: digits.drop 1) ++
    (if power < 0 then ['e', '-'] else ['e', '+']) ++ Text.paddedDecimal 2 power.natAbs

def scientific (x : Fraction) (places : Nat) : List Char :=
  let (power, ds) := x.digits places
  withPower power ds

def trimZeros (s : List Char) : List Char :=
  if s.contains '.' then
    ((s.reverse.dropWhile (· == '0')).dropWhile (· == '.')).reverse
  else s

/-- The shorter of both ways, with so many digits at most. -/
def general (x : Fraction) (count : Nat) (keepsZeros : Bool) : List Char :=
  let count := max count 1
  let (power, ds) := x.digits (count - 1)
  let trim (s : List Char) := if keepsZeros then s else trimZeros s
  if power < -4 || (count : Int) ≤ power then
    let front := trim (ds.take 1 ++ (if ds.length ≤ 1 then [] else '.' :: ds.drop 1))
    withPower power (front.filter (· != '.'))
  else trim (x.fixed ((count : Int) - 1 - power).natAbs)

end Fraction

def Field.real (f : Field) (kind : Char) (s : List Char) : List Char × Bool :=
  let (x, isAll) := fraction s
  let places := f.precision.getD 6
  let lower := kind.toLower
  let body := if lower == 'f' then x.fixed places
    else if lower == 'e' then x.scientific places
    else x.general places (f.flags.contains '#')
  let body := if kind == lower then body else body.map Char.toUpper
  ({ f with precision := none }.pad true (f.sign x.negative ++ body), isAll)

/-- What a format makes of some words, and the words it left. The status tells of words that are
no numbers, and of a format that cannot be used. -/
structure Formatted where
  text : List Char := []
  words : List (List Char)
  status : Nat := 0
  ends : Bool := false

def Formatted.put (f : Formatted) (s : List Char) : Formatted := { f with text := f.text ++ s }

/-- Takes a number's text from the words. -/
def Formatted.putNumber (f : Formatted) (s : List Char) (isAll : Bool) : Formatted :=
  { f.put s with words := f.words.drop 1, status := if isAll then f.status else 1 }

/-- Puts one value. -/
def Formatted.convert (f : Formatted) (x : Field) (kind : Char) : Formatted :=
  let s := f.words.headD []
  let cutTo (s : List Char) := match x.precision with
    | some k => s.take k
    | none => s
  let taken (s : List Char) : Formatted := { f.put s with words := f.words.drop 1 }
  let v := number s
  let mark (s : List Char) : List Char := if x.flags.contains '#' && v.value != 0 then s else []
  let bits (base : Nat) : List Char := unsigned base v.value
  match kind with
  | 's' => taken (x.pad false (cutTo s))
  | 'b' =>
    let (s, ends) := escapes true s.length s
    { taken (x.pad false (cutTo s)) with ends }
  | 'c' => taken (x.pad false (s.take 1))
  | 'd' | 'i' => f.putNumber (x.integer v.value (Text.decimal v.value.natAbs)) v.isAll
  | 'u' => f.putNumber (x.integer 0 (bits 10)) v.isAll
  | 'o' => f.putNumber (x.integer 0 (mark ['0'] ++ bits 8)) v.isAll
  | 'x' => f.putNumber (x.integer 0 (mark ['0', 'x'] ++ bits 16)) v.isAll
  | 'X' => f.putNumber (x.integer 0 (mark ['0', 'X'] ++ (bits 16).map Char.toUpper)) v.isAll
  | 'e' | 'E' | 'f' | 'F' | 'g' | 'G' =>
    let (text, isAll) := x.real kind s
    f.putNumber text isAll
  | _ => { f with ends := true, status := 2 }

/-- A number of a format, or the next word's. -/
def Formatted.size (f : Formatted) (s : List Char) : Option Int × Formatted × List Char :=
  match s with
  | '*' :: r => (some (number (f.words.headD [])).value, { f with words := f.words.drop 1 }, r)
  | _ =>
    let digits := s.takeWhile Char.isDigit
    ((Text.digits? 10 digits).map fun n => (n : Int), f, s.drop digits.length)

/-- Passes a format once. A value that is missing is empty. -/
def once : Nat → Formatted → List Char → Formatted
  | 0, f, _ => f
  | _, f, [] => f
  | n + 1, f, '%' :: '%' :: r => once n (f.put ['%']) r
  | n + 1, f, '%' :: r =>
    let flags := r.takeWhile fun c => ['-', '+', ' ', '0', '#'].contains c
    let (width, f, r) := f.size (r.drop flags.length)
    let (precision, f, r) : Option Nat × Formatted × List Char := match r with
      | '.' :: r =>
        let (k, f, r) := f.size r
        (some (k.getD 0).natAbs, f, r)
      | _ => (none, f, r)
    let width := width.getD 0
    let flags := if width < 0 then '-' :: flags else flags
    match r with
    | [] => { f with ends := true, status := 2 }
    | kind :: r =>
      let f := f.convert ⟨flags, width.natAbs, precision⟩ kind
      if f.ends then f else once n f r
  | n + 1, f, '\\' :: c :: r =>
    let rest := r.dropWhile fun c => (digit? 8 c).isSome
    let code := if (digit? 8 c).isSome then r.length - (max rest.length (r.length - 2)) else 0
    let (s, ends) := escapes false 2 ('\\' :: c :: r.take code)
    let f := { f.put s with ends }
    if ends then f else once n f (r.drop code)
  | n + 1, f, c :: r => once n (f.put [c]) r

/-- A format is used again as long as words are left and it takes some. -/
def format (pattern : List Char) : Nat → List (List Char) → List Char × Nat
  | 0, _ => ([], 0)
  | n + 1, words =>
    let f := once (pattern.length + 1) { words } pattern
    if f.ends || f.words.isEmpty || f.words.length == words.length then (f.text, f.status)
    else
      let (s, status) := format pattern n f.words
      (f.text ++ s, max f.status status)

end Printing

end Vigil.Script
