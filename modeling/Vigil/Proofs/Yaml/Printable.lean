import Mathlib
import Vigil.Proofs.Text.Digits
import Vigil.Yaml.Tokens
import Vigil.Yaml.Writer

/-! Characters that are written as they are: what they cannot be, and that a reader takes them as
they stand. -/
namespace Vigil.Yaml

variable {c : Char} {s t : List Char}

theorem isPrintable_iff : isPrintable c = true ↔
    c.toNat = 10 ∨ (32 ≤ c.toNat ∧ c.toNat ≤ 126) ∨
      (160 ≤ c.toNat ∧ c.toNat ≤ 65533 ∧ c.toNat ≠ 65279) ∨ 65536 ≤ c.toNat := by
  simp [isPrintable, or_assoc, and_assoc]

theorem isAllowed_of_isPrintable (h : isPrintable c = true) : isAllowed c = true := by
  rw [isPrintable_iff] at h
  simp only [isAllowed, Bool.or_eq_true, Bool.and_eq_true, beq_iff_eq, decide_eq_true_eq]
  omega

theorem ne_of_isPrintable {d : Char} (h : isPrintable c = true) (hd : isPrintable d = false) :
    c ≠ d := by
  rintro rfl
  exact Bool.noConfusion (h.symm.trans hd)

theorem isRawBreak_of_isPrintable (h : isPrintable c = true) : isRawBreak c = isBreak c := by
  have hreturn : (c == '\r') = false := beq_false_of_ne (ne_of_isPrintable h (by decide))
  have hnext : (c == '\u0085') = false := beq_false_of_ne (ne_of_isPrintable h (by decide))
  simp only [isRawBreak, hreturn, hnext, Bool.or_false]

theorem isSpaceOrTab_of_isPrintable (h : isPrintable c = true) : isSpaceOrTab c = isSpace c := by
  have htab : (c == '\t') = false := beq_false_of_ne (ne_of_isPrintable h (by decide))
  simp only [isSpaceOrTab, isSpace, htab, Bool.or_false]

theorem isAlpha_iff : c.isAlpha = true ↔
    (65 ≤ c.toNat ∧ c.toNat ≤ 90) ∨ (97 ≤ c.toNat ∧ c.toNat ≤ 122) := by
  simp only [Char.isAlpha, Char.isUpper, Char.isLower, Bool.or_eq_true, Bool.and_eq_true,
    decide_eq_true_eq, ge_iff_le, UInt32.le_iff_toNat_le]
  rfl

theorem isPrintable_of_isWordChar (h : isWordChar c = true) : isPrintable c = true := by
  simp only [isWordChar, Char.isAlphanum, Bool.or_eq_true, beq_iff_eq] at h
  rw [isPrintable_iff]
  obtain ((h | h) | rfl) | rfl := h
  · rw [isAlpha_iff] at h
    omega
  · rw [isDigit_iff] at h
    omega
  · decide
  · decide

theorem ne_of_isAlpha {d : Char} (h : c.isAlpha = true) (hd : d.isAlpha = false) : c ≠ d := by
  rintro rfl
  exact Bool.noConfusion (h.symm.trans hd)

/-- A letter is passed over nowhere. -/
theorem stands_of_isAlpha (h : c.isAlpha = true) :
    isSpaceOrTab c = false ∧ isBreak c = false ∧ c ≠ '#' := by
  refine ⟨?_, ?_, ne_of_isAlpha h (by decide)⟩
  · rw [isSpaceOrTab, beq_false_of_ne (ne_of_isAlpha h (by decide)),
      beq_false_of_ne (ne_of_isAlpha h (by decide)), Bool.or_false]
  · rw [isBreak, beq_false_of_ne (ne_of_isAlpha h (by decide)),
      beq_false_of_ne (ne_of_isAlpha h (by decide)), beq_false_of_ne (ne_of_isAlpha h (by decide))]
    rfl

/-! ### Whole texts -/

/-- What stands behind a value: the end of the text, or the first letter of a key. -/
def AtMargin (rest : List Char) : Prop := rest.head?.all Char.isAlpha = true

def Printable (s : List Char) : Prop := ∀ c ∈ s, isPrintable c = true

theorem Printable.append (hs : Printable s) (ht : Printable t) : Printable (s ++ t) := by
  intro c hc
  exact (List.mem_append.mp hc).elim (hs c) (ht c)

theorem Printable.cons (hc : isPrintable c = true) (hs : Printable s) : Printable (c :: s) :=
  List.forall_mem_cons.mpr ⟨hc, hs⟩

theorem printable_cons : Printable (c :: s) ↔ isPrintable c = true ∧ Printable s :=
  List.forall_mem_cons

theorem printable_nil : Printable [] := by simp [Printable]

theorem printable_digits {acc n : Nat} (h : Text.digitsFrom? 16 acc s = some n) : Printable s := by
  induction s generalizing acc with
  | nil => exact printable_nil
  | cons c s ih =>
    rw [Text.digitsFrom?, Option.bind_eq_some_iff] at h
    obtain ⟨d, hd, h⟩ := h
    refine .cons ?_ (ih h)
    simp only [digit?, Bool.and_eq_true, decide_eq_true_eq] at hd
    rw [isPrintable_iff]
    split_ifs at hd <;> omega

theorem Printable.normalizeBreaks (h : Printable s) : normalizeBreaks s = s := by
  induction s with
  | nil => rfl
  | cons c s ih =>
    obtain ⟨hc, hs⟩ := printable_cons.mp h
    have hreturn : c ≠ '\r' := ne_of_isPrintable hc (by decide)
    have hnext : c ≠ '\u0085' := ne_of_isPrintable hc (by decide)
    rw [Yaml.normalizeBreaks.eq_3 c s fun _ h _ => hreturn h, ih hs]
    simp [hreturn, hnext]

/-! ### Neighbours -/

theorem hasPair_cons {first second : Char → Bool} :
    hasPair first second (c :: s) =
      ((first c && s.head?.any second) || hasPair first second s) := by
  cases s <;> simp [hasPair]

theorem needsEscapes_eq_false_iff :
    needsEscapes s = false ↔ Printable s ∧ hasPair isSpace isRawBreak s = false := by
  simp [needsEscapes, Printable]

end Vigil.Yaml
