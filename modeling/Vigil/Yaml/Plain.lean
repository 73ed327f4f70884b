import Vigil.Text.Number
/-! What plain scalars read as: null, truth values, integers and floats. -/
namespace Vigil.Yaml

def isNullText (s : List Char) : Bool :=
  ["null", "Null", "NULL", "~"].any fun w => w.toList == s

def isTruthText (s : List Char) : Bool :=
  ["true", "True", "TRUE", "false", "False", "FALSE"].any fun w => w.toList == s

def isSign (c : Char) : Bool := c == '+' || c == '-'

def afterPlus : List Char → List Char
  | '+' :: r => r
  | s => s

def startsSigned (s : List Char) : Bool := s.head?.any isSign

/-- Digits behind a leading zero make no number. -/
def isZeroLed (s : List Char) : Bool :=
  let body := if startsSigned s then s.drop 1 else s
  match body with
  | '0' :: r => !r.isEmpty && r.all Char.isDigit
  | _ => false

/-- The base that `0x`, `0o` or `0b` announces, and what follows. -/
def based? : List Char → Option (Nat × List Char)
  | '0' :: 'x' :: r => some (16, r)
  | '0' :: 'o' :: r => some (8, r)
  | '0' :: 'b' :: r => some (2, r)
  | _ => none

/-- An integer of no sign or a plus sign, in any base, up to `limit`. -/
def unsigned? (limit : Nat) (s : List Char) : Option Nat :=
  let body := afterPlus s
  let fits (n : Option Nat) := n.filter (· ≤ limit)
  match based? body with
  | some (base, r) => fits (Text.digits? base r)
  | none =>
    if startsSigned body || isZeroLed s then none else fits (Text.digits? 10 body)

/-- A negative integer down to `-limit`, in any base. -/
def isNegative (limit : Nat) (s : List Char) : Bool :=
  match s with
  | '-' :: body =>
    match based? body with
    | some (base, r) => ((Text.digits? base r).filter (· ≤ limit)).isSome
    | none => !isZeroLed s && ((Text.digits? 10 body).filter (· ≤ limit)).isSome
  | _ => false

/-- Integers of up to 128 bits. -/
def isIntegerText (s : List Char) : Bool :=
  (unsigned? (Nat.pow 2 128 - 1) s).isSome || isNegative (Nat.pow 2 127) s

/-- A decimal as mantissa and power of ten. -/
def decimal? (s : List Char) : Option (Nat × Int) := do
  let body := if startsSigned s then s.drop 1 else s
  let whole := body.takeWhile Char.isDigit
  let rest := body.drop whole.length
  let (places, rest) :=
    match rest with
    | '.' :: r => (r.takeWhile Char.isDigit, r.dropWhile Char.isDigit)
    | _ => ([], rest)
  let mantissa ← Text.digits? 10 (whole ++ places)
  let exponent ←
    match rest with
    | [] => some (0 : Int)
    | e :: r =>
      if e == 'e' || e == 'E' then do
        let n ← Text.digits? 10 (if startsSigned r then r.drop 1 else r)
        some (if r.head? == some '-' then -(n : Int) else (n : Int))
      else none
  some (mantissa, exponent - (places.length : Int))

/-- Whether a decimal rounds to a finite number of 64 bits: it is less than 2^1024 - 2^970. -/
def isFinite (mantissa : Nat) (exponent : Int) : Bool :=
  if mantissa == 0 then true
  else if exponent < 0 then
    let cut := exponent.natAbs
    let digits := (Text.decimal mantissa).length
    digits < cut + 300 || mantissa < (Nat.pow 2 1024 - Nat.pow 2 970) * Nat.pow 10 cut
  else exponent ≤ 400 && mantissa * Nat.pow 10 exponent.natAbs < Nat.pow 2 1024 - Nat.pow 2 970

def isFloatText (s : List Char) : Bool :=
  let named (words : List String) (t : List Char) := words.any fun w => w.toList == t
  let body := afterPlus s
  if body.length != s.length && startsSigned body then false
  else named [".inf", ".Inf", ".INF"] body || named ["-.inf", "-.Inf", "-.INF"] s ||
    named [".nan", ".NaN", ".NAN"] s ||
    ((decimal? body).map fun (m, e) => isFinite m e).getD false

/-- A text that would not read as text were it written plain. -/
def readsOtherwise (s : List Char) : Bool :=
  s.isEmpty || isNullText s || isTruthText s || isIntegerText s || isZeroLed s || isFloatText s

end Vigil.Yaml
