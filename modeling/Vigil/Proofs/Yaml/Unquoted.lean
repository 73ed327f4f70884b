import Mathlib
import Vigil.Proofs.Yaml.Plain
import Vigil.Text.Blank

/-! Texts made of digits, letters and the marks of numbers and times. They need no quotes and no
trimming. -/
namespace Vigil

variable {c : Char} {s t : List Char}

/-! ### Texts that need no quotes -/

/-- What numbers and times are written in. -/
def isBare (c : Char) : Bool := c.isAlphanum || c == '-' || c == '+' || c == ':' || c == '.'

def Bare (s : List Char) : Prop := ∀ c ∈ s, isBare c = true

theorem bare_nil : Bare [] := by simp [Bare]

theorem Bare.cons (hc : isBare c = true) (hs : Bare s) : Bare (c :: s) :=
  List.forall_mem_cons.mpr ⟨hc, hs⟩

theorem Bare.append (hs : Bare s) (ht : Bare t) : Bare (s ++ t) := by
  intro c hc
  exact (List.mem_append.mp hc).elim (hs c) (ht c)

theorem isBare_of_isDigit (h : c.isDigit = true) : isBare c = true := by
  simp [isBare, Char.isAlphanum, h]

theorem isBare_iff : isBare c = true ↔
    (48 ≤ c.toNat ∧ c.toNat ≤ 57) ∨ (65 ≤ c.toNat ∧ c.toNat ≤ 90) ∨
      (97 ≤ c.toNat ∧ c.toNat ≤ 122) ∨ c = '-' ∨ c = '+' ∨ c = ':' ∨ c = '.' := by
  simp only [isBare, Char.isAlphanum, Bool.or_eq_true, beq_iff_eq, Yaml.isAlpha_iff, isDigit_iff]
  tauto

theorem ne_of_isBare {d : Char} (h : isBare c = true) (hd : isBare d = false) : c ≠ d := by
  rintro rfl
  exact Bool.noConfusion (h.symm.trans hd)

theorem isPrintable_of_isBare (h : isBare c = true) : Yaml.isPrintable c = true := by
  rw [isBare_iff] at h
  obtain h | h | h | rfl | rfl | rfl | rfl := h
  · rw [Yaml.isPrintable_iff]
    omega
  · rw [Yaml.isPrintable_iff]
    omega
  · rw [Yaml.isPrintable_iff]
    omega
  all_goals decide

theorem isBlank_of_isBare (h : isBare c = true) : isBlank c = false := by
  rw [isBare_iff] at h
  obtain h | h | h | rfl | rfl | rfl | rfl := h
  · simp [isBlank]
    omega
  · simp [isBlank]
    omega
  · simp [isBlank]
    omega
  all_goals decide

theorem Bare.trim (h : Bare s) : Text.trim s = s := by
  have hstart {s : List Char} (h : Bare s) : s.dropWhile isBlank = s := by
    cases s with
    | nil => rfl
    | cons c s => simp [isBlank_of_isBare (h c List.mem_cons_self)]
  have hreverse : Bare s.reverse := fun c hc => h c (List.mem_reverse.mp hc)
  rw [Text.trim, Text.trimStart, hstart h, Text.trimEnd, hstart hreverse, List.reverse_reverse]

namespace Yaml

theorem isRawBreak_of_isBare (h : isBare c = true) : isRawBreak c = false := by
  rw [isRawBreak, isBreak]
  simp only [Bool.or_eq_false_iff, beq_eq_false_iff_ne]
  and_intros <;> exact ne_of_isBare h (by decide)

theorem isSpaceOrTab_of_isBare (h : isBare c = true) : isSpaceOrTab c = false := by
  simp only [isSpaceOrTab, Bool.or_eq_false_iff, beq_eq_false_iff_ne]
  and_intros <;> exact ne_of_isBare h (by decide)

theorem endsRawWord_of_bare (h : Bare s) (hne : s ≠ []) : endsRawWord s = false := by
  cases s with
  | nil => exact absurd rfl hne
  | cons c s =>
    have hc := h c List.mem_cons_self
    rw [endsRawWord, isSpaceOrTab_of_isBare hc, isRawBreak_of_isBare hc, Bool.or_false]

/-- A colon marks nothing unless it is the last character. -/
theorem hasMarkFrom_of_bare (h : Bare s) (hlast : s.getLast? ≠ some ':') :
    hasMarkFrom false s = false := by
  induction s with
  | nil => rfl
  | cons c s ih =>
    obtain ⟨hc, hs⟩ := List.forall_mem_cons.mp h
    have hcolon : (c == ':' && endsRawWord s) = false := by
      by_cases hne : s = []
      · subst hne
        have hc : c ≠ ':' := by simpa using hlast
        rw [beq_false_of_ne hc, Bool.false_and]
      · rw [endsRawWord_of_bare hs hne, Bool.and_false]
    have hlast' : s.getLast? ≠ some ':' := by
      cases s with
      | nil => simp
      | cons d s => rwa [List.getLast?_cons_cons] at hlast
    simp [hasMarkFrom, hcolon, isSpaceOrTab_of_isBare hc, isRawBreak_of_isBare hc, ih hs hlast']

/-- A text that is written as it is and read as text that is no key. -/
structure Unquoted (s : List Char) : Prop where
  bare : Bare s
  head : s.head?.any (· != ':') = true
  last : s.getLast?.any Char.isAlphanum = true

theorem Unquoted.ne_nil (h : Unquoted s) : s ≠ [] := by
  rintro rfl
  exact absurd h.head (by decide)

theorem Unquoted.printable (h : Unquoted s) : Printable s :=
  fun c hc => isPrintable_of_isBare (h.bare c hc)

theorem Unquoted.noMark (h : Unquoted s) : hasMark s = false := by
  cases s with
  | nil => rfl
  | cons c s =>
    obtain ⟨hc, hs⟩ := List.forall_mem_cons.mp h.bare
    have hfrom := hasMarkFrom_of_bare h.bare fun hcolon =>
      absurd h.last (by rw [hcolon]; decide)
    simp only [hasMarkFrom, Bool.or_eq_false_iff] at hfrom
    have hlist : "#,[]{}&*!|>\x27\x22%@\x60".toList.contains c = false := by
      rw [← Bool.not_eq_true]
      intro hmem
      have hnone : "#,[]{}&*!|>\x27\x22%@\x60".toList.all fun d => !isBare d := rfl
      have hnot := List.all_eq_true.mp hnone c (List.contains_iff_mem.mp hmem)
      rw [hc] at hnot
      exact Bool.noConfusion hnot
    have hstart : ((c == '?' || c == ':' || c == '-') && endsRawWord s) = false := by
      by_cases hne : s = []
      · subst hne
        rw [Bool.and_eq_false_imp]
        intro hmark
        simp only [Bool.or_eq_true, beq_iff_eq] at hmark
        obtain (rfl | rfl) | rfl := hmark <;> exact absurd h.last (by decide)
      · rw [endsRawWord_of_bare hs hne, Bool.and_false]
    rw [hasMark, startsAsMark, hlist, hstart, hfrom.2, Bool.or_false, Bool.or_false]

theorem Unquoted.words (h : Unquoted s) : Words s where
  printable := h.printable
  oneLine := by
    rw [List.any_eq_false]
    intro c hc
    simp [isRawBreak_of_isBare (h.bare c hc)]
  noMark := h.noMark
  head := by
    cases s with
    | nil => rfl
    | cons c s => exact beq_false_of_ne (ne_of_isBare (h.bare c List.mem_cons_self) (by decide))
  last := by
    rw [List.getLast?_eq_some_getLast h.ne_nil]
    exact beq_false_of_ne (ne_of_isBare (h.bare _ (List.getLast_mem h.ne_nil)) (by decide))

end Yaml

open Yaml (Unquoted)

theorem unquoted_decimal (n : Nat) : Unquoted (Text.decimal n) := by
  have hbare : Bare (Text.decimal n) :=
    fun c hc => isBare_of_isDigit (Text.isDigit_of_mem_decimal hc)
  refine ⟨hbare, ?_, ?_⟩
  · obtain ⟨c, r, hdec, hc, -⟩ := Text.decimal_cases n
    rw [hdec]
    have hcolon : c ≠ ':' := by
      rintro rfl
      exact absurd hc (by decide)
    simpa using hcolon
  · have hne := Text.decimal_ne_nil n
    have hdigit := Text.isDigit_of_mem_decimal (List.getLast_mem hne)
    rw [List.getLast?_eq_some_getLast hne]
    simp [Char.isAlphanum, hdigit]

end Vigil
