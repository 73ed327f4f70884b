import Mathlib
import Vigil.Text.Number

/-! Digits that were written are read as the number they were written for. -/
namespace Vigil

theorem digit?_digitChar {base n : Nat} (hbase : base ≤ 16) (h : n < base) :
    digit? base n.digitChar = some n := by
  have hn : n < 16 := by omega
  interval_cases n <;> simp [digit?, Nat.digitChar] <;> omega

theorem isDigit_iff {c : Char} : c.isDigit = true ↔ 48 ≤ c.toNat ∧ c.toNat ≤ 57 := by
  simp only [Char.isDigit, Bool.and_eq_true, decide_eq_true_eq, ge_iff_le, UInt32.le_iff_toNat_le]
  rfl

theorem digit?_ten_isSome (c : Char) : (digit? 10 c).isSome = c.isDigit := by
  rw [Bool.eq_iff_iff, isDigit_iff]
  simp only [digit?, Bool.and_eq_true, decide_eq_true_eq]
  split_ifs <;> simp <;> omega

theorem toNat_toUpper (c : Char) :
    c.toUpper.toNat = if 97 ≤ c.toNat ∧ c.toNat ≤ 122 then c.toNat - 32 else c.toNat := by
  have hlower : (97 ≤ c.toNat ∧ c.toNat ≤ 122) ↔ 'a'.val ≤ c.val ∧ c.val ≤ 'z'.val := by
    rw [UInt32.le_iff_toNat_le, UInt32.le_iff_toNat_le]
    rfl
  simp only [hlower, Char.toUpper]
  split_ifs with h
  · have hn : 97 ≤ c.toNat ∧ c.toNat ≤ 122 := hlower.mpr h
    have hval : c.val.toNat = c.toNat := rfl
    have hshift : ('A'.val - 'a'.val).toNat = 4294967264 := rfl
    change (c.val + ('A'.val - 'a'.val)).toNat = _
    rw [UInt32.toNat_add, hshift, hval]
    omega
  · rfl

theorem digit?_toUpper (base : Nat) (c : Char) : digit? base c.toUpper = digit? base c := by
  simp only [digit?, toNat_toUpper, Bool.and_eq_true, decide_eq_true_eq]
  split_ifs <;> first | omega | rfl

namespace Text

variable {base : Nat}

theorem digitsFrom?_toUpper (acc : Nat) (s : List Char) :
    digitsFrom? base acc (s.map Char.toUpper) = digitsFrom? base acc s := by
  induction s generalizing acc with
  | nil => rfl
  | cons c s ih => simp only [List.map_cons, digitsFrom?, digit?_toUpper, ih]

theorem digitsFrom?_append (acc : Nat) (s t : List Char) :
    digitsFrom? base acc (s ++ t) = (digitsFrom? base acc s).bind (digitsFrom? base · t) := by
  induction s generalizing acc with
  | nil => rfl
  | cons c s ih => simp [digitsFrom?, ih, Option.bind_assoc]

theorem digitsFrom?_toDigits (hbase : 1 < base) (hbase' : base ≤ 16) (n : Nat) :
    digitsFrom? base 0 (Nat.toDigits base n) = some n := by
  induction n using Nat.strongRecOn with
  | _ n ih =>
    rw [Nat.toDigits_eq_if hbase]
    split
    · next h => simp [digitsFrom?, digit?_digitChar hbase' h]
    · next h =>
      have hdiv : n / base < n := Nat.div_lt_self (by omega) hbase
      have hmod : n % base < base := Nat.mod_lt _ (by omega)
      have hsum : n / base * base + n % base = n := Nat.div_add_mod' n base
      simp [digitsFrom?_append, ih _ hdiv, digitsFrom?, digit?_digitChar hbase' hmod, hsum]

theorem digitsFrom?_zeros (count : Nat) (s : List Char) (hbase : 0 < base) :
    digitsFrom? base 0 (List.replicate count '0' ++ s) = digitsFrom? base 0 s := by
  have hzero : digit? base '0' = some 0 := by simp [digit?, hbase]
  induction count with
  | zero => rfl
  | succ count ih => simp [List.replicate_succ, digitsFrom?, hzero, ih]

/-! ### Decimals -/

theorem decimal_ne_nil (n : Nat) : decimal n ≠ [] := Nat.toDigits_ne_nil

theorem isDigit_of_mem_decimal {n : Nat} {c : Char} (h : c ∈ decimal n) : c.isDigit = true :=
  Nat.isDigit_of_mem_toDigits (by decide) (by decide) h

theorem digitsFrom?_decimal (n : Nat) : digitsFrom? 10 0 (decimal n) = some n :=
  digitsFrom?_toDigits (by decide) (by decide) n

theorem digits?_decimal (n : Nat) : digits? 10 (decimal n) = some n := by
  simp [digits?, decimal_ne_nil, digitsFrom?_decimal]

/-- What a decimal begins with. Only zero begins with a zero. -/
theorem decimal_cases (n : Nat) :
    ∃ c r, decimal n = c :: r ∧ c.isDigit = true ∧ (c = '0' → r = []) := by
  induction n using Nat.strongRecOn with
  | _ n ih =>
    unfold decimal
    rw [Nat.toDigits_eq_if (by decide)]
    split
    · next h => exact ⟨_, [], rfl, by simpa [Nat.isDigit_digitChar] using h, fun _ => rfl⟩
    · next h =>
      obtain ⟨c, r, hdec, hc, hzero⟩ := ih (n / 10) (by omega)
      refine ⟨c, r ++ [(n % 10).digitChar], ?_, hc, fun h0 => ?_⟩
      · rw [show Nat.toDigits 10 (n / 10) = c :: r from hdec, List.cons_append]
      · -- a quotient that is written as a lone zero is zero
        have hread := digits?_decimal (n / 10)
        rw [hdec, h0, hzero h0] at hread
        have : 0 = n / 10 := by simpa [digits?, digitsFrom?, digit?] using hread
        omega

theorem unsigned?_plus (limit : Nat) (s : List Char) :
    unsigned? limit ('+' :: s) = (digits? 10 s).filter (· ≤ limit) := rfl

theorem unsigned?_of_head?_ne {s : List Char} (h : s.head? ≠ some '+') (limit : Nat) :
    unsigned? limit s = (digits? 10 s).filter (· ≤ limit) := by
  unfold unsigned?
  split
  · exact absurd rfl h
  · rfl

theorem unsigned?_le {limit n : Nat} {s : List Char} (h : unsigned? limit s = some n) :
    n ≤ limit := by
  unfold unsigned? at h
  simpa using (Option.filter_eq_some_iff.mp h).2

/-! ### Numerals -/

/-- One digit or more, with a plus sign in front or none. -/
def Numeral (s : List Char) (n : Nat) : Prop :=
  ∃ ds, ds ≠ [] ∧ (∀ c ∈ ds, c.isDigit = true) ∧ (s = ds ∨ s = '+' :: ds) ∧
    n = Nat.ofDigitChars 10 ds 0

theorem digit?_ten_eq_some_iff {c : Char} {d : Nat} :
    digit? 10 c = some d ↔ c.isDigit = true ∧ d = c.toNat - 48 := by
  rw [isDigit_iff]
  simp only [digit?, Bool.and_eq_true, decide_eq_true_eq]
  split_ifs <;> simp <;> omega

theorem digitsFrom?_eq_some_iff {acc n : Nat} {s : List Char} : digitsFrom? 10 acc s = some n ↔
    (∀ c ∈ s, c.isDigit = true) ∧ n = Nat.ofDigitChars 10 s acc := by
  induction s generalizing acc with
  | nil =>
    rw [digitsFrom?, Option.some.injEq, Nat.ofDigitChars_nil]
    exact ⟨fun h => ⟨by simp, h.symm⟩, fun h => h.2.symm⟩
  | cons c s ih =>
    have hstep : Nat.ofDigitChars 10 (c :: s) acc =
        Nat.ofDigitChars 10 s (acc * 10 + (c.toNat - 48)) := by
      rw [Nat.ofDigitChars_cons, Nat.mul_comm]
      rfl
    rw [digitsFrom?, Option.bind_eq_some_iff, List.forall_mem_cons, hstep]
    constructor
    · rintro ⟨d, hd, hs⟩
      obtain ⟨hc, rfl⟩ := digit?_ten_eq_some_iff.mp hd
      obtain ⟨hds, hn⟩ := ih.mp hs
      exact ⟨⟨hc, hds⟩, hn⟩
    · rintro ⟨⟨hc, hds⟩, hn⟩
      exact ⟨_, digit?_ten_eq_some_iff.mpr ⟨hc, rfl⟩, ih.mpr ⟨hds, hn⟩⟩

theorem digits?_eq_some_iff {n : Nat} {s : List Char} : digits? 10 s = some n ↔
    s ≠ [] ∧ (∀ c ∈ s, c.isDigit = true) ∧ n = Nat.ofDigitChars 10 s 0 := by
  cases s with
  | nil => simp [digits?]
  | cons c s => simp [digits?, digitsFrom?_eq_some_iff]

theorem unsigned?_eq_some_iff {limit n : Nat} {s : List Char} :
    unsigned? limit s = some n ↔ Numeral s n ∧ n ≤ limit := by
  by_cases hplus : s.head? = some '+'
  · obtain ⟨r, rfl⟩ : ∃ r, s = '+' :: r := by
      cases s with
      | nil => cases hplus
      | cons c r => exact ⟨r, by cases hplus; rfl⟩
    rw [unsigned?_plus, Option.filter_eq_some_iff, digits?_eq_some_iff, decide_eq_true_eq]
    refine and_congr_left fun _ => ⟨fun ⟨hne, hds, hn⟩ => ⟨r, hne, hds, .inr rfl, hn⟩, ?_⟩
    rintro ⟨ds, hne, hds, heq, hn⟩
    obtain rfl | heq := heq
    · exact absurd (hds '+' (by simp)) (by decide)
    · cases heq
      exact ⟨hne, hds, hn⟩
  · rw [unsigned?_of_head?_ne hplus, Option.filter_eq_some_iff, digits?_eq_some_iff,
      decide_eq_true_eq]
    refine and_congr_left fun _ => ⟨fun ⟨hne, hds, hn⟩ => ⟨s, hne, hds, .inl rfl, hn⟩, ?_⟩
    rintro ⟨ds, hne, hds, heq, hn⟩
    obtain rfl | rfl := heq
    · exact ⟨hne, hds, hn⟩
    · exact absurd rfl hplus

/-! ### Decimals of a fixed width -/

theorem digitsFrom?_paddedDecimal (width n : Nat) :
    digitsFrom? 10 0 (paddedDecimal width n) = some n := by
  rw [paddedDecimal, digitsFrom?_zeros _ _ (by decide), digitsFrom?_decimal]

theorem length_paddedDecimal {width n : Nat} (hwidth : 0 < width) (h : n < 10 ^ width) :
    (paddedDecimal width n).length = width := by
  have : (decimal n).length ≤ width := (Nat.length_toDigits_le_iff (by decide) hwidth).mpr h
  simp only [paddedDecimal, List.length_append, List.length_replicate]
  omega

theorem isDigit_of_mem_paddedDecimal {width n : Nat} {c : Char} (h : c ∈ paddedDecimal width n) :
    c.isDigit = true := by
  obtain hzero | hdec := List.mem_append.mp h
  · rw [List.eq_of_mem_replicate hzero]
    rfl
  · exact isDigit_of_mem_decimal hdec

end Text

end Vigil
