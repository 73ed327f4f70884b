import Vigil.Text.Number
/-! Instants of UTC and the calendar date each second falls on. -/
namespace Vigil

/-- Seconds since the start of 1970 and nanoseconds within the second. The nanoseconds go past
10^9 only inside a leap second, which stands at the end of a minute. -/
structure Instant where
  secs : Int
  nanos : Nat
  nanos_lt : nanos < 2000000000
  leap : 1000000000 ≤ nanos → secs % 60 = 59
deriving DecidableEq, Repr

structure Date where
  year : Int
  month : Nat
  day : Nat
deriving DecidableEq, Repr

namespace Date

/-- Days since the start of 1970. Years are counted from March, in cycles of 400. -/
def toDays (d : Date) : Int :=
  let y := if d.month ≤ 2 then d.year - 1 else d.year
  let cycle := y / 400
  let inCycle := y % 400
  let m : Int := if d.month ≤ 2 then d.month + 9 else d.month - 3
  let inYear := (153 * m + 2) / 5 + d.day - 1
  cycle * 146097 + inCycle * 365 + inCycle / 4 - inCycle / 100 + inYear - 719468

def ofDays (days : Int) : Date :=
  let z := days + 719468
  let cycle := z / 146097
  let e := z % 146097
  let inCycle := (e - e / 1460 + e / 36524 - e / 146096) / 365
  let inYear := e - (365 * inCycle + inCycle / 4 - inCycle / 100)
  let m := (5 * inYear + 2) / 153
  let month := if m < 10 then m + 3 else m - 9
  let year := inCycle + cycle * 400 + (if month ≤ 2 then 1 else 0)
  ⟨year, month.toNat, (inYear - (153 * m + 2) / 5 + 1).toNat⟩

def isLeapYear (y : Int) : Bool := y % 4 == 0 && (y % 100 != 0 || y % 400 == 0)

def monthLength (y : Int) (m : Nat) : Nat :=
  if m == 2 then if isLeapYear y then 29 else 28
  else if m == 4 || m == 6 || m == 9 || m == 11 then 30
  else 31

def Valid (d : Date) : Prop :=
  1 ≤ d.month ∧ d.month ≤ 12 ∧ 1 ≤ d.day ∧ d.day ≤ monthLength d.year d.month

instance (d : Date) : Decidable d.Valid := by unfold Valid; infer_instance

end Date

namespace Instant

def ofParts? (secs : Int) (nanos : Nat) : Option Instant :=
  if h : nanos < 2000000000 ∧ (1000000000 ≤ nanos → secs % 60 = 59) then
    some ⟨secs, nanos, h.1, h.2⟩
  else none

/-- The seconds are held to the years -262143 to 262142. -/
def ofUnix? (secs : Int) (nanos : Nat) : Option Instant :=
  if -8334601228800 ≤ secs ∧ secs ≤ 8210266876799 then ofParts? secs nanos else none

def date (t : Instant) : Date := Date.ofDays (t.secs / 86400)

def secondOfDay (t : Instant) : Nat := (t.secs % 86400).toNat

end Instant

end Vigil
