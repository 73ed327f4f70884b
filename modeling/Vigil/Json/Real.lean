import Vigil.Json.Value
import Vigil.Text.Number
/-! Numbers that are no integers of 64 bits: the double next to a decimal, and the shortest
decimal that leads back to it. -/
namespace Vigil.Json

/-- A number that is not negative: `mantissa` times a power of two. The mantissa has 53 bits, or
fewer with the least power. -/
structure Double where
  mantissa : Nat
  power : Int
deriving DecidableEq, Repr

/-- A fraction, multiplied by a power of a base. -/
def scale (base : Nat) (power : Int) (num den : Nat) : Nat × Nat :=
  if power < 0 then (num, den * Nat.pow base power.natAbs) else (num * Nat.pow base power.natAbs, den)

/-- The integer next to a fraction; from the middle it is the even one. -/
def roundEven (num den : Nat) : Nat :=
  let q := num / den
  let r := num % den
  if 2 * r < den then q
  else if den < 2 * r then q + 1
  else q + q % 2

namespace Double

def leastPower : Int := -1074

/-- The double next to a fraction, if it is not too large. -/
def nearest? (num den : Nat) : Option Double :=
  let guess : Int := (Nat.log2 num : Int) - Nat.log2 den - 53
  let (n, d) := scale 2 (-guess) num den
  let power := max (if Nat.pow 2 53 ≤ n / d then guess + 1 else guess) leastPower
  let (n, d) := scale 2 (-power) num den
  let q := roundEven n d
  let x : Double := if q = Nat.pow 2 53 then ⟨Nat.pow 2 52, power + 1⟩ else ⟨q, power⟩
  if 971 < x.power then none else some x

/-- In quarters of the last place: from where to where numbers round to it. -/
def lowest (x : Double) : Nat :=
  if x.mantissa = Nat.pow 2 52 ∧ leastPower < x.power then 4 * x.mantissa - 1 else 4 * x.mantissa - 2

def highest (x : Double) : Nat := 4 * x.mantissa + 2

/-- Whether a decimal of so many units of a power of ten rounds to it. -/
def covers (x : Double) (digits : Nat) (power : Int) : Bool :=
  let (n, d) := scale 10 power digits 1
  let (n, d) := scale 2 (2 - x.power) n d
  if x.mantissa % 2 = 0 then x.lowest * d ≤ n && n ≤ x.highest * d
  else x.lowest * d < n && n < x.highest * d

/-- How many digits stand in front of the point; for numbers below a tenth it is negative. -/
def magnitude (num den : Nat) : Int :=
  let guess : Int := ((Text.decimal num).length : Int) - (Text.decimal den).length
  let (n, d) := scale 10 (-guess) num den
  if d ≤ n then guess + 1 else guess

/-- Looks for a decimal that leads back, among those of more and more digits. Of the two next to
the number the nearer one is taken. -/
def digitsFrom (x : Double) (num den : Nat) (magnitude : Int) : Nat → Nat → Nat × Int
  | 0, count => (0, count)
  | left + 1, count =>
    let power := magnitude - count
    let (n, d) := scale 10 (-power) num den
    let near := roundEven n d
    let other := if near = n / d then near + 1 else n / d
    if x.covers near power then (near, power)
    else if x.covers other power then (other, power)
    else digitsFrom x num den magnitude left (count + 1)

/-- The shortest decimal that rounds to it: digits and a power of ten. -/
def shortest (x : Double) : Nat × Int :=
  let (num, den) := scale 2 x.power x.mantissa 1
  digitsFrom x num den (magnitude num den) 17 1

end Double

/-- Digits without zeros at the end, with the power of ten that makes up for them. -/
def trimDecimal (digits : List Char) (power : Int) : List Char × Int :=
  let zeros := (digits.reverse.takeWhile (· == '0')).length
  (digits.take (digits.length - zeros), power + zeros)

/-- How digits with a power of ten are laid out: with up to 16 digits in front of the point and up
to four zeros behind it; otherwise with a power. -/
def layOut (digits : List Char) (power : Int) : List Char :=
  let front := digits.length + power
  let zeros (n : Int) := List.replicate n.natAbs '0'
  if 0 ≤ power && front ≤ 16 then digits ++ zeros power ++ ['.', '0']
  else if 0 < front && front ≤ 16 then
    digits.take front.natAbs ++ '.' :: digits.drop front.natAbs
  else if -5 < front && front ≤ 0 then '0' :: '.' :: (zeros front ++ digits)
  else
    let point := if digits.length = 1 then [] else ['.']
    digits.take 1 ++ point ++ digits.drop 1 ++ 'e' :: Text.decimalInt (front - 1)

def realText (negative : Bool) (num den : Nat) : List Char :=
  let sign := if negative then ['-'] else []
  if num = 0 then sign ++ ['0', '.', '0']
  else match Double.nearest? num den with
    | none => ['n', 'u', 'l', 'l']
    | some ⟨0, _⟩ => sign ++ ['0', '.', '0']
    | some x =>
      let (d, e) := x.shortest
      let (digits, power) := trimDecimal (Text.decimal d) e
      sign ++ layOut digits power

/-- The value of a decimal with so many places. Integers of 64 bits stay what they are. -/
def ofDecimal (n : Int) (places : Nat) : Value :=
  if places = 0 && -9223372036854775808 ≤ n && n ≤ 18446744073709551615 then .int n
  else .verbatim (String.ofList (realText (n < 0) n.natAbs (Nat.pow 10 places)))

end Vigil.Json
