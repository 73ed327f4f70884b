import Mathlib
import Vigil.Proofs.Text.Utf8

/-! Texts are in the order of their bytes: of two texts the one whose characters come first is the
one whose UTF-8 does. -/
namespace Vigil.Utf8

theorem cons_ofByte_lt {a b : ℕ} (ha : a < 256) (hb : b < 256) (l l' : List UInt8) :
    a.toUInt8 :: l < b.toUInt8 :: l' ↔ a < b ∨ a = b ∧ l < l' := by
  rw [List.cons_lt_cons_iff, UInt8.lt_iff_toNat_lt, ← UInt8.toNat_inj, toNat_ofByte ha,
    toNat_ofByte hb]

theorem toNat_lt_limit (c : Char) : c.toNat < 0x110000 := by
  have hvalid : c.toNat < 0xD800 ∨ 0xDFFF < c.toNat ∧ c.toNat < 0x110000 := c.valid
  omega

/-- The first bytes of two characters of different lengths differ, and characters of one length
differ in a digit to the base 64. -/
theorem encodeChar_append_lt {c d : Char} (h : c < d) (x y : List UInt8) :
    encodeChar c ++ x < encodeChar d ++ y := by
  have hlt : c.toNat < d.toNat := h
  have hlimit := toNat_lt_limit d
  simp only [encodeChar]
  generalize c.toNat = n at hlt
  generalize d.toNat = m at hlt hlimit
  split_ifs <;> simp only [List.cons_append, List.nil_append]
  all_goals
    repeat rw [cons_ofByte_lt (by omega) (by omega)]
    omega

theorem encode_lt_encode {s t : List Char} (h : s < t) : encode s < encode t := by
  induction h with
  | @nil c t =>
    obtain ⟨b, bs, hbytes, -⟩ := next_encodeChar c []
    rw [encode, encode, List.flatMap_nil, List.flatMap_cons, hbytes, List.cons_append]
    exact List.nil_lt_cons b _
  | cons _ ih => exact List.append_left_lt ih
  | rel h => exact encodeChar_append_lt h _ _

theorem encodeText_lt_encodeText {s t : String} (h : s < t) : encodeText s < encodeText t :=
  encode_lt_encode h

end Vigil.Utf8
