import Mathlib
import Vigil.Proofs.Json.Printed

/-! A value that is printed on one line: it is read as it was, and no control character stands in
the line. -/
namespace Vigil.Json

variable {t : List Char} {v : Value}

/-! ### Reading -/

theorem itemsReadAs_compact {xs : List Value} (h : ∀ x ∈ xs, ReadsAs (compact x) x)
    (hv : ReadsAs t v) : ItemsReadAs (t ++ compactItems xs) (v :: xs) := by
  induction xs generalizing t v with
  | nil => exact hv.last blanks_nil
  | cons x xs ih =>
    rw [List.forall_mem_cons] at h
    exact hv.item (ih h.2 h.1)

theorem fieldsReadAs_compact {fs : List (String × Value)}
    (h : ∀ f ∈ fs, ReadsAs (compact f.2) f.2) (hv : ReadsAs t v) (k : String) :
    FieldsReadAs (quote k ++ ':' :: (t ++ compactFields fs)) ((k, v) :: fs) := by
  induction fs generalizing k t v with
  | nil => exact hv.lastField blanks_nil blanks_nil k
  | cons f fs ih =>
    rw [List.forall_mem_cons] at h
    exact hv.field blanks_nil (ih h.2 h.1 f.1) k

theorem Plain.readsAs_compact (h : Plain v) : ReadsAs (compact v) v := by
  induction h with
  | null => exact readsAs_of_succ (by simp [compact, scalarText]) fun left rest => rfl
  | bool b =>
    cases b <;> exact readsAs_of_succ (by simp [compact, scalarText]) fun left rest => rfl
  | int n => exact readsAs_int n
  | str s => exact readsAs_quote s
  | @arr xs _ ih =>
    cases xs with
    | nil => exact readsAs_of_succ (by simp [compact, scalarText]) fun left rest => rfl
    | cons x xs =>
      rw [List.forall_mem_cons] at ih
      exact (itemsReadAs_compact ih.2 ih.1).array
  | @obj fs _ ih =>
    cases fs with
    | nil => exact readsAs_of_succ (by simp [compact, scalarText]) fun left rest => rfl
    | cons f fs =>
      rw [List.forall_mem_cons] at ih
      exact (fieldsReadAs_compact ih.2 ih.1 f.1).object

theorem read?_compact (h : Plain v) : read? (compact v) = some v := h.readsAs_compact.read?

/-! ### One line -/

/-- No control character below U+0020 is in the text, and so no end of a line. -/
def Unbroken (s : List Char) : Prop := ∀ c ∈ s, 0x20 ≤ c.toNat

theorem unbroken_nil : Unbroken [] := by simp [Unbroken]

theorem Unbroken.append {s s' : List Char} (h : Unbroken s) (h' : Unbroken s') :
    Unbroken (s ++ s') := fun c hc =>
  (List.mem_append.mp hc).elim (h c) (h' c)

theorem Unbroken.cons {c : Char} {s : List Char} (hc : 0x20 ≤ c.toNat) (h : Unbroken s) :
    Unbroken (c :: s) := List.forall_mem_cons.mpr ⟨hc, h⟩

theorem le_toNat_digitChar {n : ℕ} (h : n < 16) : 0x20 ≤ (Nat.digitChar n).toNat := by
  interval_cases n <;> decide

theorem unbroken_hexByte (n : ℕ) : Unbroken (Text.hexByte n) :=
  .cons (le_toNat_digitChar (Nat.mod_lt _ (by decide)))
    (.cons (le_toNat_digitChar (Nat.mod_lt _ (by decide))) unbroken_nil)

theorem unbroken_escapeChar (c : Char) : Unbroken (escapeChar c) := by
  simp only [escapeChar, Bool.or_eq_true, beq_iff_eq]
  split_ifs with hmark h8 h9 h10 h12 h13 hcontrol
  · have hc : 0x20 ≤ c.toNat := by omega
    exact .cons (by decide) (.cons hc unbroken_nil)
  · exact .cons (by decide) (.cons (by decide) unbroken_nil)
  · exact .cons (by decide) (.cons (by decide) unbroken_nil)
  · exact .cons (by decide) (.cons (by decide) unbroken_nil)
  · exact .cons (by decide) (.cons (by decide) unbroken_nil)
  · exact .cons (by decide) (.cons (by decide) unbroken_nil)
  · exact .cons (by decide) (.cons (by decide) (.cons (by decide) (.cons (by decide)
      (unbroken_hexByte _))))
  · exact .cons (not_lt.mp hcontrol) unbroken_nil

theorem unbroken_quote (s : String) : Unbroken (quote s) := by
  have hbody : Unbroken (s.toList.flatMap escapeChar) := fun c hc => by
    obtain ⟨d, -, hd⟩ := List.mem_flatMap.mp hc
    exact unbroken_escapeChar d c hd
  exact .cons (by decide) (hbody.append (.cons (by decide) unbroken_nil))

theorem unbroken_decimalInt (n : ℤ) : Unbroken (Text.decimalInt n) := by
  have hdigits : Unbroken (Text.decimal n.natAbs) := fun c hc => by
    have hdigit := Text.isDigit_of_mem_decimal hc
    rw [isDigit_iff] at hdigit
    omega
  unfold Text.decimalInt
  split_ifs
  · exact .cons (by decide) hdigits
  · exact hdigits

theorem unbroken_compactItems {xs : List Value} (h : ∀ x ∈ xs, Unbroken (compact x)) :
    Unbroken (compactItems xs) := by
  induction xs with
  | nil => exact .cons (by decide) unbroken_nil
  | cons x xs ih =>
    rw [List.forall_mem_cons] at h
    exact .cons (by decide) (h.1.append (ih h.2))

theorem unbroken_compactFields {fs : List (String × Value)}
    (h : ∀ f ∈ fs, Unbroken (compact f.2)) : Unbroken (compactFields fs) := by
  induction fs with
  | nil => exact .cons (by decide) unbroken_nil
  | cons f fs ih =>
    rw [List.forall_mem_cons] at h
    exact .cons (by decide)
      ((unbroken_quote f.1).append (.cons (by decide) (h.1.append (ih h.2))))

theorem Plain.unbroken_compact (h : Plain v) : Unbroken (compact v) := by
  induction h with
  | null => simp [Unbroken, compact, scalarText]
  | bool b => cases b <;> simp [Unbroken, compact, scalarText]
  | int n => exact unbroken_decimalInt n
  | str s => exact unbroken_quote s
  | @arr xs _ ih =>
    cases xs with
    | nil => simp [Unbroken, compact, scalarText]
    | cons x xs =>
      rw [List.forall_mem_cons] at ih
      exact .cons (by decide) (ih.1.append (unbroken_compactItems ih.2))
  | @obj fs _ ih =>
    cases fs with
    | nil => simp [Unbroken, compact, scalarText]
    | cons f fs =>
      rw [List.forall_mem_cons] at ih
      exact .cons (by decide) ((unbroken_quote f.1).append
        (.cons (by decide) (ih.1.append (unbroken_compactFields ih.2))))

end Vigil.Json
