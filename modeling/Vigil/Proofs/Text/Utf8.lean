import Mathlib
import Vigil.Text.Utf8

/-! Text that was written as UTF-8 is read as it was, and text that is read strictly was written in
just those bytes. -/
namespace Vigil.Utf8

theorem toNat_ofByte {n : Nat} (h : n < 256) : n.toUInt8.toNat = n := by
  simp [Nat.toUInt8, Nat.mod_eq_of_lt h]

theorem follow_zero (payload low high : Nat) (bytes : List UInt8) :
    follow 0 payload low high bytes = (some payload, bytes) := rfl

theorem follow_ofByte {n low high : Nat} (count payload : Nat) (bytes : List UInt8)
    (hn : n < 256) (hlow : low ≤ n) (hhigh : n ≤ high) :
    follow (count + 1) payload low high (n.toUInt8 :: bytes) =
      follow count (payload * 64 + (n - 0x80)) 0x80 0xBF bytes := by
  rw [follow, toNat_ofByte hn]
  simp [hlow, hhigh]

/-- Three bytes, of which the second rules out shorter forms and surrogates. -/
theorem lead_three {b : Nat} (hlow : 0xE0 ≤ b) (hhigh : b ≤ 0xEF) :
    lead b = some (2, b - 0xE0, if b = 0xE0 then 0xA0 else 0x80,
      if b = 0xED then 0x9F else 0xBF) := by
  interval_cases b <;> rfl

/-- Four bytes, of which the second rules out shorter forms and what is past the last character. -/
theorem lead_four {b : Nat} (hlow : 0xF0 ≤ b) (hhigh : b ≤ 0xF4) :
    lead b = some (3, b - 0xF0, if b = 0xF0 then 0x90 else 0x80,
      if b = 0xF4 then 0x8F else 0xBF) := by
  interval_cases b <;> rfl

/-- The range that a character's leading byte leaves for the next one has room for it: what is no
surrogate and has no shorter form. -/
theorem next_encodeChar (c : Char) (rest : List UInt8) :
    ∃ b bs, encodeChar c = b :: bs ∧ next b (bs ++ rest) = (some c, rest) := by
  have hvalid : c.toNat < 0xD800 ∨ 0xDFFF < c.toNat ∧ c.toNat < 0x110000 := c.valid
  have hback : Char.ofNat c.toNat = c := Char.ofNat_toNat c
  simp only [encodeChar]
  generalize c.toNat = n at hvalid hback
  split_ifs with h1 h2 h3
  · refine ⟨_, _, rfl, ?_⟩
    simp [next, toNat_ofByte (show n < 256 by omega), h1, hback]
  · refine ⟨_, _, rfl, ?_⟩
    have hb : (0xC0 + n / 64).toUInt8.toNat = 0xC0 + n / 64 := toNat_ofByte (by omega)
    have hlead : lead (0xC0 + n / 64) = some (1, n / 64, 0x80, 0xBF) := by
      rw [lead, if_pos (by simp; omega)]
      simp
    rw [next, hb, if_neg (by omega), hlead]
    simp only [List.cons_append, List.nil_append]
    rw [follow_ofByte _ _ _ (by omega) (by omega) (by omega), follow_zero]
    have hsum : n / 64 * 64 + (0x80 + n % 64 - 0x80) = n := by omega
    rw [hsum, Option.map_some, hback]
  · refine ⟨_, _, rfl, ?_⟩
    have hb : (0xE0 + n / 4096).toUInt8.toNat = 0xE0 + n / 4096 := toNat_ofByte (by omega)
    rw [next, hb, if_neg (by omega), lead_three (by omega) (by omega), Nat.add_sub_cancel_left]
    simp only [List.cons_append, List.nil_append]
    rw [follow_ofByte _ _ _ (by omega) (by split_ifs <;> omega) (by split_ifs <;> omega),
      follow_ofByte _ _ _ (by omega) (by omega) (by omega), follow_zero]
    have hsum : (n / 4096 * 64 + (0x80 + n / 64 % 64 - 0x80)) * 64 + (0x80 + n % 64 - 0x80) =
      n := by omega
    rw [hsum, Option.map_some, hback]
  · refine ⟨_, _, rfl, ?_⟩
    have hb : (0xF0 + n / 262144).toUInt8.toNat = 0xF0 + n / 262144 := toNat_ofByte (by omega)
    rw [next, hb, if_neg (by omega), lead_four (by omega) (by omega), Nat.add_sub_cancel_left]
    simp only [List.cons_append, List.nil_append]
    rw [follow_ofByte _ _ _ (by omega) (by split_ifs <;> omega) (by split_ifs <;> omega),
      follow_ofByte _ _ _ (by omega) (by omega) (by omega),
      follow_ofByte _ _ _ (by omega) (by omega) (by omega), follow_zero]
    have hsum : ((n / 262144 * 64 + (0x80 + n / 4096 % 64 - 0x80)) * 64 +
        (0x80 + n / 64 % 64 - 0x80)) * 64 + (0x80 + n % 64 - 0x80) = n := by omega
    rw [hsum, Option.map_some, hback]

theorem decode?_cons {b : UInt8} {bytes left : List UInt8} {c : Char}
    (h : next b bytes = (some c, left)) : decode? (b :: bytes) = (decode? left).map (c :: ·) := by
  rw [decode?]
  split
  · next heq => rw [h] at heq; cases heq
  · next heq => rw [h] at heq; cases heq; rfl

theorem decode?_encode (s : List Char) : decode? (encode s) = some s := by
  induction s with
  | nil => rw [encode, List.flatMap_nil, decode?]
  | cons c s ih =>
    obtain ⟨b, bs, hbytes, hnext⟩ := next_encodeChar c (encode s)
    have hencode : encode (c :: s) = b :: (bs ++ encode s) := by
      rw [encode, List.flatMap_cons, hbytes]
      rfl
    rw [hencode, decode?_cons hnext, ih]
    rfl

theorem decodeText?_encodeText (s : String) : decodeText? (encodeText s) = some s := by
  rw [decodeText?, encodeText, decode?_encode, Option.map_some, String.ofList_toList]

/-! ### Strict reading -/

theorem follow_zero_eq {payload low high code : Nat} {bytes rest : List UInt8}
    (h : follow 0 payload low high bytes = (some code, rest)) : code = payload ∧ rest = bytes := by
  cases h
  exact ⟨rfl, rfl⟩

theorem follow_succ_eq {count payload low high code : Nat} {bytes rest : List UInt8}
    (h : follow (count + 1) payload low high bytes = (some code, rest)) :
    ∃ b tail, bytes = b :: tail ∧ low ≤ b.toNat ∧ b.toNat ≤ high ∧
      follow count (payload * 64 + (b.toNat - 0x80)) 0x80 0xBF tail = (some code, rest) := by
  cases bytes with
  | nil => cases h
  | cons b tail =>
    rw [follow] at h
    split_ifs at h with hrange
    · simp only [Bool.and_eq_true, decide_eq_true_eq] at hrange
      exact ⟨b, tail, rfl, hrange.1, hrange.2, h⟩
    · cases h

theorem toNat_ofNat_of_valid {n : Nat} (h : n < 0xD800 ∨ 0xDFFF < n ∧ n < 0x110000) :
    (Char.ofNat n).toNat = n := by
  have hvalid : n.isValidChar := h
  simp [Char.ofNat, hvalid, Char.toNat, Char.ofNatAux]

theorem byte_eq {b : UInt8} {n : Nat} (h : n = b.toNat) : n.toUInt8 = b := by
  subst h
  simp [Nat.toUInt8]

/-- What a leading byte asks for, by the count of the bytes that follow. -/
theorem lead_eq_some {b count payload low high : Nat}
    (h : lead b = some (count, payload, low, high)) :
    (count = 1 ∧ 0xC2 ≤ b ∧ b ≤ 0xDF ∧ payload = b - 0xC0 ∧ low = 0x80 ∧ high = 0xBF) ∨
    (count = 2 ∧ 0xE0 ≤ b ∧ b ≤ 0xEF ∧ payload = b - 0xE0 ∧
      low = (if b = 0xE0 then 0xA0 else 0x80) ∧ high = if b = 0xED then 0x9F else 0xBF) ∨
    (count = 3 ∧ 0xF0 ≤ b ∧ b ≤ 0xF4 ∧ payload = b - 0xF0 ∧
      low = (if b = 0xF0 then 0x90 else 0x80) ∧ high = if b = 0xF4 then 0x8F else 0xBF) := by
  simp only [lead, Bool.and_eq_true, decide_eq_true_eq, beq_iff_eq] at h
  split_ifs at h <;> simp only [Option.some.injEq, Prod.mk.injEq] at h <;>
    split_ifs <;> omega

/-- A character that is read strictly was written in just those bytes. -/
theorem encodeChar_of_next {b : UInt8} {bytes rest : List UInt8} {c : Char}
    (h : next b bytes = (some c, rest)) : encodeChar c ++ rest = b :: bytes := by
  unfold next at h
  split_ifs at h with hascii
  · cases h
    have hn : (Char.ofNat b.toNat).toNat = b.toNat := toNat_ofNat_of_valid (by omega)
    simp [encodeChar, hn, hascii]
  · have hb := b.toNat_lt
    cases hlead : lead b.toNat with
    | none => simp [hlead] at h
    | some range =>
      obtain ⟨count, payload, low, high⟩ := range
      simp only [hlead] at h
      generalize hfollow : follow count payload low high bytes = result at h
      obtain ⟨code, left⟩ := result
      obtain ⟨hcode, rfl⟩ := Prod.mk.inj h
      obtain ⟨n, rfl, rfl⟩ := Option.map_eq_some_iff.mp hcode
      obtain ⟨rfl, hlow, hhigh, hpayload, hfrom, huntil⟩ |
        ⟨rfl, hlow, hhigh, hpayload, hfrom, huntil⟩ |
        ⟨rfl, hlow, hhigh, hpayload, hfrom, huntil⟩ := lead_eq_some hlead
      · obtain ⟨b1, tail, rfl, hlow1, hhigh1, hfollow⟩ := follow_succ_eq hfollow
        obtain ⟨hn, rfl⟩ := follow_zero_eq hfollow
        rw [encodeChar, toNat_ofNat_of_valid (by omega), if_neg (by omega), if_pos (by omega),
          byte_eq (b := b) (by omega), byte_eq (b := b1) (by omega)]
        rfl
      · obtain ⟨b1, tail, rfl, hlow1, hhigh1, hfollow⟩ := follow_succ_eq hfollow
        obtain ⟨b2, tail, rfl, hlow2, hhigh2, hfollow⟩ := follow_succ_eq hfollow
        obtain ⟨hn, rfl⟩ := follow_zero_eq hfollow
        have hfirst : 0x80 ≤ b1.toNat ∧ b1.toNat ≤ 0xBF ∧ (b.toNat = 0xE0 → 0xA0 ≤ b1.toNat) ∧
            (b.toNat = 0xED → b1.toNat ≤ 0x9F) := by
          split_ifs at hfrom huntil <;> omega
        rw [encodeChar, toNat_ofNat_of_valid (by omega), if_neg (by omega), if_neg (by omega),
          if_pos (by omega), byte_eq (b := b) (by omega), byte_eq (b := b1) (by omega),
          byte_eq (b := b2) (by omega)]
        rfl
      · obtain ⟨b1, tail, rfl, hlow1, hhigh1, hfollow⟩ := follow_succ_eq hfollow
        obtain ⟨b2, tail, rfl, hlow2, hhigh2, hfollow⟩ := follow_succ_eq hfollow
        obtain ⟨b3, tail, rfl, hlow3, hhigh3, hfollow⟩ := follow_succ_eq hfollow
        obtain ⟨hn, rfl⟩ := follow_zero_eq hfollow
        have hfirst : 0x80 ≤ b1.toNat ∧ b1.toNat ≤ 0xBF ∧ (b.toNat = 0xF0 → 0x90 ≤ b1.toNat) ∧
            (b.toNat = 0xF4 → b1.toNat ≤ 0x8F) := by
          split_ifs at hfrom huntil <;> omega
        rw [encodeChar, toNat_ofNat_of_valid (by omega), if_neg (by omega), if_neg (by omega),
          if_neg (by omega), byte_eq (b := b) (by omega), byte_eq (b := b1) (by omega),
          byte_eq (b := b2) (by omega), byte_eq (b := b3) (by omega)]
        rfl

/-- Text that is read strictly is written in just the bytes it was read from. -/
theorem encode_of_decode? {bytes : List UInt8} {s : List Char} (h : decode? bytes = some s) :
    encode s = bytes := by
  fun_induction decode? bytes generalizing s with
  | case1 =>
    cases h
    rfl
  | case2 => cases h
  | case3 b rest c left hnext hshort ih =>
    obtain ⟨t, ht, rfl⟩ := Option.map_eq_some_iff.mp h
    have hchar := encodeChar_of_next hnext
    rw [encode, List.flatMap_cons, ← hchar]
    exact congrArg _ (ih ht)

theorem encodeText_of_decodeText? {bytes : List UInt8} {s : String}
    (h : decodeText? bytes = some s) : encodeText s = bytes := by
  obtain ⟨t, ht, rfl⟩ := Option.map_eq_some_iff.mp h
  rw [encodeText, String.toList_ofList, encode_of_decode? ht]

end Vigil.Utf8
