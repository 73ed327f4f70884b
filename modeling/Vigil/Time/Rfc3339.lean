import Vigil.Time.Instant
/-! The RFC 3339 text of an instant. -/
namespace Vigil.Rfc3339

def digit (n : Nat) : Char := Nat.digitChar (n % 10)

def twoDigits (n : Nat) : List Char := [digit (n / 10), digit n]

/-- Years of four digits stand alone; any other has a sign. -/
def yearText (y : Int) : List Char :=
  if 0 ≤ y && y ≤ 9999 then Text.paddedDecimal 4 y.toNat
  else (if y < 0 then '-' else '+') :: Text.paddedDecimal 4 y.natAbs

/-- Three, six or nine places, as many as are needed. -/
def fractionText (n : Nat) : List Char :=
  if n == 0 then []
  else if n % 1000000 == 0 then '.' :: Text.paddedDecimal 3 (n / 1000000)
  else if n % 1000 == 0 then '.' :: Text.paddedDecimal 6 (n / 1000)
  else '.' :: Text.paddedDecimal 9 n

/-- A leap second is second 60 of its minute. -/
def write (zone : List Char) (t : Instant) : List Char :=
  let d := t.date
  let s := t.secondOfDay
  yearText d.year ++ '-' :: twoDigits d.month ++ '-' :: twoDigits d.day ++
    'T' :: twoDigits (s / 3600) ++ ':' :: twoDigits (s / 60 % 60) ++
    ':' :: twoDigits (s % 60 + t.nanos / 1000000000) ++
    fractionText (t.nanos % 1000000000) ++ zone

def writeZulu : Instant → List Char := write ['Z']

def writeOffset : Instant → List Char := write ['+', '0', '0', ':', '0', '0']

def takeDigit : List Char → Option (Nat × List Char)
  | c :: r => (digit? 10 c).map (·, r)
  | [] => none

/-- Exactly `count` digits. -/
def takeNumber : Nat → Nat → List Char → Option (Nat × List Char)
  | 0, acc, s => some (acc, s)
  | count + 1, acc, s => do
    let (d, r) ← takeDigit s
    takeNumber count (acc * 10 + d) r

def takeChar (ok : Char → Bool) : List Char → Option (List Char)
  | c :: r => if ok c then some r else none
  | [] => none

/-- Digits past the ninth are dropped. -/
def takeFraction : List Char → Option (Nat × List Char)
  | '.' :: s =>
    let ds := s.takeWhile fun c => (digit? 10 c).isSome
    if ds.isEmpty then none
    else do
      let kept := ds.take 9
      let n ← Text.digits? 10 kept
      some (n * Nat.pow 10 (9 - kept.length), s.drop ds.length)
  | s => some (0, s)

/-- The offset east of UTC in minutes; the minus sign may be U+2212. -/
def takeZone : List Char → Option (Int × List Char)
  | [] => none
  | c :: s =>
    if c == 'Z' || c == 'z' then some (0, s)
    else if c == '+' || c == '-' || c == '\u2212' then do
      let (h, s) ← takeNumber 2 0 s
      let s ← takeChar (· == ':') s
      let (m, s) ← takeNumber 2 0 s
      if h ≤ 23 ∧ m ≤ 59 then
        let minutes : Int := h * 60 + m
        some (if c == '+' then minutes else -minutes, s)
      else none
    else none

/-- Reads the whole text. Second 60 is the leap second that follows second 59. -/
def read? (s : List Char) : Option Instant := do
  let (year, s) ← takeNumber 4 0 s
  let s ← takeChar (· == '-') s
  let (month, s) ← takeNumber 2 0 s
  let s ← takeChar (· == '-') s
  let (day, s) ← takeNumber 2 0 s
  let s ← takeChar (fun c => c == 'T' || c == 't' || c == ' ') s
  let (hour, s) ← takeNumber 2 0 s
  let s ← takeChar (· == ':') s
  let (minute, s) ← takeNumber 2 0 s
  let s ← takeChar (· == ':') s
  let (second, s) ← takeNumber 2 0 s
  let (nanos, s) ← takeFraction s
  let (zone, s) ← takeZone s
  let date : Date := ⟨year, month, day⟩
  if s.isEmpty ∧ date.Valid ∧ hour ≤ 23 ∧ minute ≤ 59 ∧ second ≤ 60 then
    let whole : Int := date.toDays * 86400 + hour * 3600 + minute * 60 + min second 59
    Instant.ofParts? (whole - zone * 60) (nanos + if second == 60 then 1000000000 else 0)
  else none

end Vigil.Rfc3339
