import Vigil.Text.Number
/-! Spans of time: whole nanoseconds up to 2^64 seconds less one nanosecond. -/
namespace Vigil

structure Duration where
  nanos : Nat
  bounded : nanos < 18446744073709551616 * 1000000000 := by omega
deriving DecidableEq, Repr

namespace Duration

def largest : Nat := 18446744073709551616 * 1000000000 - 1

/-- Spans past the largest are cut to it. -/
def ofNanos (n : Nat) : Duration :=
  ⟨min n largest, by unfold largest; omega⟩

def ofMillis (n : Nat) : Duration := ofNanos (n * 1000000)

def ofSecs (n : Nat) : Duration := ofNanos (n * 1000000000)

def secs (d : Duration) : Nat := d.nanos / 1000000000

def subsec (d : Duration) : Nat := d.nanos % 1000000000

instance : LE Duration := ⟨fun a b => a.nanos ≤ b.nanos⟩

instance (a b : Duration) : Decidable (a ≤ b) := inferInstanceAs (Decidable (a.nanos ≤ b.nanos))

/-- A product past the largest span is cut to it. -/
def times (d : Duration) (k : Nat) : Duration := ofNanos (d.nanos * k)

def atMost (d cap : Duration) : Duration := if d ≤ cap then d else cap

/-- A fraction of `width` digits, without the zeros it ends in. -/
def fraction (width n : Nat) : List Char :=
  let ds := ((Text.paddedDecimal width n).reverse.dropWhile (· == '0')).reverse
  if ds.isEmpty then [] else '.' :: ds

/-- The largest unit of s, ms, µs and ns in which the span is one or more, with the fraction
that is left. -/
def text (d : Duration) : String :=
  let n := d.nanos
  let parts :=
    if 1000000000 ≤ n then
      Text.decimal (n / 1000000000) ++ fraction 9 (n % 1000000000) ++ ['s']
    else if 1000000 ≤ n then
      Text.decimal (n / 1000000) ++ fraction 6 (n % 1000000) ++ ['m', 's']
    else if 1000 ≤ n then Text.decimal (n / 1000) ++ fraction 3 (n % 1000) ++ ['µ', 's']
    else Text.decimal n ++ ['n', 's']
  String.ofList parts

end Duration

end Vigil
