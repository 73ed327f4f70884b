import Mathlib
import Vigil.Proofs.Yaml.Literal
import Vigil.Proofs.Yaml.Plain

/-! A text that was written as the value of a key is one scalar to the lexer, in whichever form it
was written. `ReadsAs` is what the lexer's reading of a value has to come to. -/
namespace Vigil.Yaml

namespace Lexer

/-- A lexer outside of all collections, or at the top of a mapping. -/
def topLevel (opened allowed : Bool) (m : Mark) (tokens : List Token) (rest : List Char) :
    Lexer where
  cursor := ⟨m, rest⟩
  tokens := tokens
  indent := if opened then 0 else -1
  outer := if opened then [-1] else []
  keyAllowed := allowed

variable {opened allowed : Bool} {m : Mark} {tokens : List Token} {c : Char} {rest : List Char}
  {s t : Lexer} {n : Nat}

/-! ### Steps -/

theorem run_congr (h : s.skip = t.skip) : run n s = run n t := by
  cases n with
  | zero => rfl
  | succ n => rw [run, run, h]

theorem run_token {s' s₁ : Lexer} (hskip : s.skip = s₁) (hplaces : s₁.dropStale = some s₁)
    (hrest : s₁.cursor.rest = c :: rest) (htoken : s₁.token c rest = some s') :
    run (n + 1) s = run n s' := by
  simp [run, hskip, hplaces, hrest, htoken]

theorem dropStale_of_places (h : s.places = [none]) : s.dropStale = some s := by
  cases s
  simp_all [dropStale]

theorem unrollTo_of_le {column : Int} (h : s.indent ≤ column) : s.unrollTo column = s := by
  have hnone : (s.indent :: s.outer).takeWhile (· > column) = [] := by
    simp [h]
  cases s
  simp_all [unrollTo]

theorem indent_topLevel_le (opened : Bool) (column : Nat) :
    (topLevel opened allowed m tokens rest).indent ≤ column := by
  cases opened <;> simp [topLevel]

/-- A plain scalar begins with no indicator, or with one of three that do not stand alone. -/
def Begins (c : Char) (rest : List Char) : Prop :=
  isIndicator c = false ∧ isSpaceOrTab c = false ∨
    (c = '?' ∨ c = ':' ∨ c = '-') ∧ endsWord rest = false

theorem token_of_begins (hindent : s.indent ≤ s.cursor.mark.column) (hflow : s.inFlow = false)
    (hstart : s.cursor.mark.column = 0 → c ≠ '%' ∧ isDocumentMark (c :: rest) = false)
    (h : Begins c rest) : s.token c rest = s.plainScalar := by
  have hmark : (s.cursor.mark.column == 0 && c == '%') = false := by
    by_cases hm : s.cursor.mark.column = 0
    · simp [hstart hm]
    · simp [hm]
  have hdocument : (s.cursor.mark.column == 0 && isDocumentMark (c :: rest)) = false := by
    by_cases hm : s.cursor.mark.column = 0
    · simp [hstart hm]
    · simp [hm]
  rw [token, unrollTo_of_le hindent]
  simp only [hmark, hdocument, hflow]
  obtain ⟨hc, hblank⟩ | ⟨rfl | rfl | rfl, hword⟩ := h
  · simp [isIndicator] at hc
    simp [hc, startsPlain, isIndicator, hblank]
  · simp [hword, startsPlain]
  · simp [hword, startsPlain]
  · have hnext : rest.head?.any isSpaceOrTab = false := by
      cases rest with
      | nil => rfl
      | cons d rest => exact (Bool.or_eq_false_iff.mp hword).1
    simp [hword, startsPlain, hnext]

/-! ### What is passed between tokens -/

theorem skip_topLevel {allowed' : Bool} {m' : Mark} {rest' : List Char}
    (h : skipFrom false false allowed m rest = (allowed', ⟨m', rest'⟩)) :
    (topLevel opened allowed m tokens rest).skip = topLevel opened allowed' m' tokens rest' := by
  simp [skip, topLevel, inFlow, h]

theorem skipFrom_margin (hrest : AtMargin rest) :
    skipFrom false false true m rest = (true, ⟨m, rest⟩) := by
  cases rest with
  | nil => rfl
  | cons c rest =>
    obtain ⟨hspace, hbreak, hhash⟩ := stands_of_isAlpha hrest
    have hmark : c ≠ '\uFEFF' := ne_of_isAlpha hrest (by decide)
    rw [isSpaceOrTab, Bool.or_eq_false_iff] at hspace
    simp [skipFrom, hbreak, hspace.1, hhash, hmark]

theorem skip_margin (hrest : AtMargin rest) :
    (topLevel opened true m tokens rest).skip = topLevel opened true m tokens rest :=
  skip_topLevel (skipFrom_margin hrest)

theorem skip_newLine (hrest : AtMargin rest) :
    (topLevel opened allowed m tokens ('\n' :: rest)).skip =
      topLevel opened true (m.newLine '\n') tokens rest := by
  refine skip_topLevel ?_
  have hfeed : isBreak '\n' = true := rfl
  rw [skipFrom, if_pos hfeed, Bool.not_false, Bool.or_true, skipFrom_margin hrest]

/-- What a token may start with behind a blank. -/
def Starts (c : Char) : Prop := (isSpaceOrTab c || isBreak c) = false ∧ c ≠ '#'

theorem skipFrom_starts (hc : Starts c) (hm : m.column ≠ 0) :
    skipFrom false false allowed m (c :: rest) = (allowed, ⟨m, c :: rest⟩) := by
  obtain ⟨hblank, hhash⟩ := hc
  rw [isSpaceOrTab, Bool.or_eq_false_iff, Bool.or_eq_false_iff] at hblank
  simp [skipFrom, hblank.1.1, hblank.1.2, hblank.2, hm, hhash]

theorem skip_space (hc : Starts c) :
    (topLevel opened allowed m tokens (' ' :: c :: rest)).skip =
      topLevel opened allowed (m.next ' ') tokens (c :: rest) := by
  refine skip_topLevel ?_
  have hbreak : isBreak ' ' = false := rfl
  rw [skipFrom, if_neg (by simp [hbreak]), if_neg (by simp), if_pos (by rfl)]
  exact skipFrom_starts hc (Nat.succ_ne_zero _)

end Lexer

/-! ### Values -/

open Lexer

variable {m : Mark} {tokens : List Token} {c : Char} {s rest value : List Char}

/-- Behind its key `value` gives one scalar and ends where the next line starts. -/
def ReadsAs (value : List Char) (style : Style) (text : List Char) : Prop :=
  ∀ (n : Nat) (m : Mark) (tokens : List Token) (rest : List Char), AtMargin rest →
    ∃ m', m'.column = 0 ∧
      run (n + 1) (topLevel true false m tokens (' ' :: (value ++ rest))) =
        run n (topLevel true true m' (.scalar style text :: tokens) rest)

theorem readsAs_of_token {style : Style} {text : List Char} (hc : Starts c)
    (h : ∀ m tokens rest, m.column ≠ 0 → AtMargin rest →
      ∃ s' m', m'.column = 0 ∧
        token c (value ++ rest) (topLevel true false m tokens (c :: (value ++ rest))) = some s' ∧
        s'.skip = topLevel true true m' (.scalar style text :: tokens) rest) :
    ReadsAs (c :: value) style text := by
  intro n m tokens rest hrest
  obtain ⟨s', m', hm', htoken, hskip⟩ := h (m.next ' ') tokens rest (Nat.succ_ne_zero _) hrest
  refine ⟨m', hm', ?_⟩
  rw [List.cons_append, run_token (skip_space hc) (dropStale_of_places rfl) rfl htoken]
  exact run_congr (hskip.trans (skip_margin hrest).symm)

theorem readsAs_quoted (single : Bool) {body : List Char}
    (h : ∀ m rest, m.column ≠ 0 →
      ∃ m', quoted single ⟨m, body ++ quoteMark single :: '\n' :: rest⟩ =
        some (s, ⟨m', '\n' :: rest⟩)) :
    ReadsAs (quoteMark single :: (body ++ [quoteMark single, '\n'])) .quoted s := by
  have hstarts : Starts (quoteMark single) := by cases single <;> exact ⟨rfl, by decide⟩
  refine readsAs_of_token hstarts fun m tokens rest hm hrest => ?_
  obtain ⟨m', hread⟩ := h (m.next (quoteMark single)) rest (Nat.succ_ne_zero _)
  refine ⟨topLevel true false m' (.scalar .quoted s :: tokens) ('\n' :: rest), m'.newLine '\n', rfl,
    ?_, skip_newLine hrest⟩
  have htext : body ++ [quoteMark single, '\n'] ++ rest =
    body ++ quoteMark single :: '\n' :: rest := by simp
  rw [htext, token, unrollTo_of_le (indent_topLevel_le true _)]
  cases single <;>
    simp_all [quoteMark, topLevel, quotedScalar, savePlace, inFlow, Cursor.take, emit]

theorem readsAs_single (hs : Single s) :
    ReadsAs ('\x27' :: (singleBody false s ++ ['\x27', '\n'])) .quoted s :=
  readsAs_quoted true fun _ _ => quoted_single hs

theorem readsAs_double (s : List Char) :
    ReadsAs ('\x22' :: (doubleBody s ++ ['\x22', '\n'])) .quoted s :=
  readsAs_quoted false fun _ _ => quoted_double s

theorem readsAs_literal (hne : s ≠ []) (hs : Printable s) :
    ReadsAs ('|' :: (literalHints s ++ '\n' :: literalBody true s) ++
      (if s.getLast?.any isRawBreak then [] else ['\n'])) .literal s := by
  refine readsAs_of_token ⟨rfl, by decide⟩ fun m tokens rest hm hrest => ?_
  obtain ⟨m', hm', hread⟩ := block_literal (m := m.next '|') hne hs hrest
  refine ⟨topLevel true true m' (.scalar .literal s :: tokens) rest, m', hm', ?_, skip_margin hrest⟩
  rw [← List.append_assoc, ← List.cons_append, ← List.append_assoc] at hread
  rw [token, unrollTo_of_le (indent_topLevel_le true _)]
  simp_all [topLevel, blockScalar, dropPlace, inFlow, least, Cursor.take, emit]

/-- The first character of a plain value begins nothing else. -/
theorem Words.begins (h : Words (c :: s)) : Begins c (s ++ '\n' :: rest) := by
  have hmark := h.noMark
  simp only [hasMark, startsAsMark, Bool.or_eq_false_iff] at hmark
  obtain ⟨⟨hlist, halone⟩, -⟩ := hmark
  by_cases hc : (c == '?' || c == ':' || c == '-') = true
  · refine .inr ⟨by simpa [or_assoc] using hc, ?_⟩
    rw [hc, Bool.true_and] at halone
    rw [← Bool.not_eq_true]
    exact fun hends => Bool.noConfusion (halone.symm.trans (endsRawWord_of_endsWord hends))
  · refine .inl ⟨?_, ?_⟩
    · simp only [isIndicator]
      simp_all
    · rw [isSpaceOrTab_of_isPrintable (h.printable c List.mem_cons_self)]
      simpa using h.head

theorem readsAs_words (hne : s ≠ []) (h : Words s) : ReadsAs (s ++ ['\n']) .plain s := by
  cases s with
  | nil => exact absurd rfl hne
  | cons c s =>
    have hprint := h.printable c List.mem_cons_self
    have hraw : isRawBreak c = false := by
      have hany := h.oneLine
      rw [List.any_cons, Bool.or_eq_false_iff] at hany
      exact hany.1
    have hstarts : Starts c := by
      refine ⟨?_, ?_⟩
      · rw [isSpaceOrTab_of_isPrintable hprint, ← isRawBreak_of_isPrintable hprint, hraw,
          Bool.or_false]
        simpa using h.head
      · rintro rfl
        exact absurd h.noMark (by simp [hasMark, startsAsMark])
    rw [List.cons_append]
    refine readsAs_of_token hstarts fun m tokens rest hm hrest => ?_
    obtain ⟨m', hm', hread⟩ := plain_words (m := m) h hm hrest
    refine ⟨topLevel true true m' (.scalar .plain (c :: s) :: tokens) rest, m', hm', ?_,
      skip_margin hrest⟩
    rw [List.append_assoc, List.singleton_append,
      token_of_begins (indent_topLevel_le true _) rfl (fun h => absurd h hm) h.begins]
    rw [List.cons_append] at hread
    simp [topLevel, plainScalar, savePlace, inFlow, least, hread, emit]

/-- The texts that each form can hold. -/
def Fits (s : List Char) : Form → Prop
  | .plain => s ≠ [] ∧ Words s
  | .single => Single s
  | .double => True
  | .literal => s ≠ [] ∧ Printable s

theorem fits_formOf (s : List Char) : Fits s (formOf s) := by
  unfold formOf
  split_ifs with hfeed hblock hplain hsingle
  · simp only [blockAllowed, Bool.not_eq_true', Bool.or_eq_false_iff] at hblock
    exact ⟨by simpa using hblock.1.1, (needsEscapes_eq_false_iff.mp hblock.1.2).1⟩
  · trivial
  · rw [Bool.and_eq_true, Bool.not_eq_true'] at hplain
    refine ⟨?_, words_of_plainAllowed hplain.2⟩
    rintro rfl
    exact absurd hplain.1 (by decide)
  · simp only [singleAllowed, Bool.not_eq_true', Bool.or_eq_false_iff] at hsingle
    obtain ⟨hprint, hpair⟩ := needsEscapes_eq_false_iff.mp hsingle.1
    exact ⟨hprint, by simpa using hfeed, hpair, hsingle.2⟩
  · trivial

/-- The style a text is read in when it was written as a value. -/
def styleOf (s : List Char) : Style :=
  match formOf s with
  | .plain => .plain
  | .single => .quoted
  | .double => .quoted
  | .literal => .literal

theorem readsAs_valueText (s : List Char) : ReadsAs (valueText s) (styleOf s) s := by
  have hfits := fits_formOf s
  rw [valueText, styleOf]
  cases hform : formOf s <;> rw [hform] at hfits
  case plain => exact readsAs_words hfits.1 hfits.2
  case single => exact readsAs_single hfits
  case double => exact readsAs_double s
  case literal => exact readsAs_literal hfits.1 hfits.2

theorem printable_valueText (s : List Char) : Printable (valueText s) := by
  have hfits := fits_formOf s
  have hfeed : Printable ['\n'] := .cons (by decide) printable_nil
  rw [valueText]
  cases hform : formOf s <;> rw [hform] at hfits
  case plain => exact hfits.2.printable.append hfeed
  case single =>
    exact .cons (by decide) ((printable_singleBody hfits.printable false).append
      (.cons (by decide) hfeed))
  case double => exact .cons (by decide) ((printable_doubleBody s).append (.cons (by decide) hfeed))
  case literal =>
    refine .append (.cons (by decide) ((printable_literalHints s).append
      (.cons (by decide) (printable_literalBody hfits.2 true)))) ?_
    split_ifs
    · exact printable_nil
    · exact hfeed

end Vigil.Yaml
