/-! Reading unsigned numbers written in a base, and writing decimals of a fixed width. -/
namespace Vigil

/-- Both cases of the letters count as digits above nine. -/
def digit? (base : Nat) (c : Char) : Option Nat :=
  let n := c.toNat
  let d := if 48 ≤ n && n ≤ 57 then n - 48
    else if 97 ≤ n && n ≤ 122 then n - 87
    else if 65 ≤ n && n ≤ 90 then n - 55
    else base
  if d < base then some d else none

namespace Text

def digitsFrom? (base acc : Nat) : List Char → Option Nat
  | [] => some acc
  | c :: r => (digit? base c).bind fun d => digitsFrom? base (acc * base + d) r

/-- One digit or more, and nothing else. -/
def digits? (base : Nat) (s : List Char) : Option Nat :=
  if s.isEmpty then none else digitsFrom? base 0 s

/-- An optional plus sign, then decimal digits, at most `limit`. -/
def unsigned? (limit : Nat) (s : List Char) : Option Nat :=
  let body := match s with
    | '+' :: r => r
    | _ => s
  (digits? 10 body).filter (· ≤ limit)

def decimal (n : Nat) : List Char := Nat.toDigits 10 n

/-- Zeros in front make the text at least `width` digits long. -/
def paddedDecimal (width n : Nat) : List Char :=
  let ds := decimal n
  List.replicate (width - ds.length) '0' ++ ds

def decimalInt (n : Int) : List Char :=
  if n < 0 then '-' :: decimal n.natAbs else decimal n.natAbs

/-- The two hexadecimal digits of a byte value, in lower case. -/
def hexByte (n : Nat) : List Char :=
  [Nat.digitChar (n / 16 % 16), Nat.digitChar (n % 16)]

end Text

def u16Max : Nat := 65535
def u32Max : Nat := 4294967295
def u64Max : Nat := 18446744073709551615

end Vigil
