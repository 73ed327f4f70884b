/-! UTF-8: writing, strict reading, and reading that puts U+FFFD for what is no character. -/
namespace Vigil.Utf8

def encodeChar (c : Char) : List UInt8 :=
  let n := c.toNat
  if n < 0x80 then [n.toUInt8]
  else if n < 0x800 then [(0xC0 + n / 64).toUInt8, (0x80 + n % 64).toUInt8]
  else if n < 0x10000 then
    [(0xE0 + n / 4096).toUInt8, (0x80 + n / 64 % 64).toUInt8, (0x80 + n % 64).toUInt8]
  else
    [(0xF0 + n / 262144).toUInt8, (0x80 + n / 4096 % 64).toUInt8,
      (0x80 + n / 64 % 64).toUInt8, (0x80 + n % 64).toUInt8]

def encode (s : List Char) : List UInt8 := s.flatMap encodeChar

def encodeText (s : String) : List UInt8 := encode s.toList

/-- What a leading byte asks for: the count of bytes that follow, its own payload, and the
range of the first byte after it. The range rules out overlong forms and surrogates. -/
def lead (b : Nat) : Option (Nat × Nat × Nat × Nat) :=
  if 0xC2 ≤ b && b ≤ 0xDF then some (1, b - 0xC0, 0x80, 0xBF)
  else if b == 0xE0 then some (2, 0, 0xA0, 0xBF)
  else if b == 0xED then some (2, 13, 0x80, 0x9F)
  else if 0xE1 ≤ b && b ≤ 0xEF then some (2, b - 0xE0, 0x80, 0xBF)
  else if b == 0xF0 then some (3, 0, 0x90, 0xBF)
  else if 0xF1 ≤ b && b ≤ 0xF3 then some (3, b - 0xF0, 0x80, 0xBF)
  else if b == 0xF4 then some (3, 4, 0x80, 0x8F)
  else none

/-- Reads `count` further bytes; `none` with the bytes left when one does not fit. -/
def follow : Nat → Nat → Nat → Nat → List UInt8 → Option Nat × List UInt8
  | 0, payload, _, _, bytes => (some payload, bytes)
  | _ + 1, _, _, _, [] => (none, [])
  | count + 1, payload, low, high, b :: bytes =>
    if low ≤ b.toNat && b.toNat ≤ high then
      follow count (payload * 64 + (b.toNat - 0x80)) 0x80 0xBF bytes
    else (none, b :: bytes)

/-- The first character, or `none` for the longest ill-formed run that could have begun one. -/
def next (b : UInt8) (bytes : List UInt8) : Option Char × List UInt8 :=
  if b.toNat < 0x80 then (some (Char.ofNat b.toNat), bytes)
  else match lead b.toNat with
    | none => (none, bytes)
    | some (count, payload, low, high) =>
      let (code, rest) := follow count payload low high bytes
      (code.map Char.ofNat, rest)

theorem follow_length (count payload low high : Nat) (bytes : List UInt8) :
    (follow count payload low high bytes).2.length ≤ bytes.length := by
  fun_induction follow count payload low high bytes with
  | case1 => simp
  | case2 => simp
  | case3 _ _ _ _ _ _ _ ih => simp only [List.length_cons]; omega
  | case4 => simp

theorem next_length (b : UInt8) (bytes : List UInt8) :
    (next b bytes).2.length ≤ bytes.length := by
  unfold next
  split
  · simp
  · split
    · simp
    · exact follow_length ..

def decode? (bytes : List UInt8) : Option (List Char) :=
  match bytes with
  | [] => some []
  | b :: rest =>
    match h : next b rest with
    | (none, _) => none
    | (some c, left) =>
      have : left.length < rest.length + 1 := by
        have := next_length b rest; rw [h] at this; simp only at this; omega
      (decode? left).map (c :: ·)
termination_by bytes.length

def decodeText? (bytes : List UInt8) : Option String := (decode? bytes).map String.ofList

/-- Each longest ill-formed run becomes one U+FFFD. -/
def decodeLossy (bytes : List UInt8) : List Char :=
  match bytes with
  | [] => []
  | b :: rest =>
    have : (next b rest).2.length < rest.length + 1 := by
      have := next_length b rest; omega
    (next b rest).1.getD '\uFFFD' :: decodeLossy (next b rest).2
termination_by bytes.length

end Vigil.Utf8
