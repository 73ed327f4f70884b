import Mathlib
import Vigil.Proofs.Yaml.Quoted

/-! Plain words are read back: a key up to its colon, and a value up to the end of its line. -/
namespace Vigil.Yaml

variable {c : Char} {s rest done : List Char} {gap : Option Gap} {m : Mark}

/-! ### Steps -/

theorem plainFrom_space :
    plainFrom false 1 done gap m (' ' :: rest) =
      plainFrom false 1 done (some ((gap.getD {}).push ' ')) (m.next ' ') rest := by
  rw [plainFrom, if_pos (by rfl)]
  simp only [show (' ' == '\t') = false from rfl, Bool.and_false, Bool.false_eq_true, if_false]
  rfl

/-- Whether a character goes on with a word; one that ends a word stops it only where it stands
alone. -/
theorem plainFrom_char {indent : Nat} (hblank : (isSpaceOrTab c || isBreak c) = false)
    (hstay : gap.isSome = true → m.column ≠ 0 ∧ indent ≤ m.column ∧ c ≠ '#')
    (hcolon : c = ':' → endsWord rest = false) :
    plainFrom false indent done gap m (c :: rest) =
      plainFrom false indent (c :: ((gap.getD {}).fold.reverse ++ done)) none (m.next c) rest := by
  have hgap : (gap.isSome && ((!false && m.column < indent) || c == '#' ||
      (m.column == 0 && isDocumentMark (c :: rest)))) = false := by
    cases gap with
    | none => rfl
    | some g =>
      obtain ⟨hm, hindent, hmark⟩ := hstay rfl
      simp [hm, hmark]
      omega
  have hends : (c == ':' && endsWord rest) = false := by
    by_cases hc : c = ':'
    · simp [hcolon hc]
    · simp [hc]
  rw [plainFrom]
  simp only [hblank, hgap, hends, Bool.false_and, Bool.or_false, Bool.false_eq_true, if_false,
    Gap.fold_getD]

/-- A line end is the end where the next line starts at the left margin. -/
theorem plainFrom_newLine (hrest : AtMargin rest) :
    plainFrom false 1 done none m ('\n' :: rest) =
      some ⟨done.reverse, true, ⟨m.newLine '\n', rest⟩⟩ := by
  rw [plainFrom, if_pos (by rfl)]
  cases rest with
  | nil => rfl
  | cons c rest =>
    obtain ⟨hspace, hbreak, -⟩ := stands_of_isAlpha hrest
    simp only [Option.getD_none, Bool.false_and, Bool.false_eq_true, if_false]
    rw [plainFrom]
    have hfeed : isBreak '\n' = true := rfl
    simp [hspace, hbreak, hfeed, Gap.push, Mark.past, Mark.newLine]

/-! ### Values -/

theorem endsRawWord_of_endsWord (h : endsWord (s ++ '\n' :: rest) = true) :
    endsRawWord s = true := by
  cases s with
  | nil => rfl
  | cons c s =>
    have hc : (isSpaceOrTab c || isBreak c) = true := h
    simp only [Bool.or_eq_true] at hc
    simp only [endsRawWord, isRawBreak, Bool.or_eq_true]
    tauto

theorem getLast?_any_tail {p : Char → Bool} (h : (c :: s).getLast?.any p = false) :
    s.getLast?.any p = false := by
  cases s with
  | nil => rfl
  | cons d s => rwa [List.getLast?_cons_cons] at h

/-- Words that neither a colon nor a `#` cuts, up to the end of their line. -/
theorem plainFrom_words (done : List Char) (gap : Option Gap) (m : Mark) (hprint : Printable s)
    (hraw : s.any isRawBreak = false) (hmark : hasMarkFrom gap.isSome s = false)
    (hlast : s.getLast?.any isSpace = false) (hgap : (gap.getD {}).broken = false)
    (hend : s = [] → gap = none) (hm : m.column ≠ 0) (hrest : AtMargin rest) :
    ∃ m', m'.column = 0 ∧ plainFrom false 1 done gap m (s ++ '\n' :: rest) =
      some ⟨done.reverse ++ (gap.getD {}).fold ++ s, true, ⟨m', rest⟩⟩ := by
  induction s generalizing done gap m with
  | nil =>
    obtain rfl := hend rfl
    exact ⟨_, rfl, by simpa [Gap.fold] using plainFrom_newLine hrest⟩
  | cons c s ih =>
    obtain ⟨hc, hs⟩ := printable_cons.mp hprint
    rw [List.any_cons, Bool.or_eq_false_iff] at hraw
    simp only [hasMarkFrom, Bool.or_eq_false_iff] at hmark
    obtain ⟨⟨hcolon, hhash⟩, hmark⟩ := hmark
    have hlast' := getLast?_any_tail hlast
    rw [isSpaceOrTab_of_isPrintable hc, hraw.1, Bool.or_false] at hmark
    -- a space waits in the gap for the next word, which puts it back
    by_cases hspace : c = ' '
    · subst hspace
      obtain ⟨m', hm', hread⟩ := ih done (some ((gap.getD {}).push ' ')) (m.next ' ') hs hraw.2
        hmark hlast' (Gap.broken_push_space.trans hgap)
        (by rintro rfl; exact absurd hlast (by decide)) (Nat.succ_ne_zero _)
      refine ⟨m', hm', ?_⟩
      rw [List.cons_append, plainFrom_space, hread, Option.getD_some, Gap.fold_push_space hgap]
      simp
    · have hblank : (isSpaceOrTab c || isBreak c) = false := by
        rw [isSpaceOrTab_of_isPrintable hc, ← isRawBreak_of_isPrintable hc, hraw.1]
        simpa [isSpace] using hspace
      have hnot : isSpace c = false := by simpa [isSpace] using hspace
      rw [hnot] at hmark
      obtain ⟨m', hm', hread⟩ := ih (c :: ((gap.getD {}).fold.reverse ++ done)) none (m.next c)
        hs hraw.2 hmark hlast' rfl (fun _ => rfl) (Nat.succ_ne_zero _)
      refine ⟨m', hm', ?_⟩
      rw [List.cons_append, plainFrom_char hblank, hread]
      · simp [Gap.fold]
      · intro hsome
        rw [hsome, Bool.and_true] at hhash
        exact ⟨hm, by omega, by simpa using hhash⟩
      · intro hc
        rw [hc, BEq.rfl, Bool.true_and] at hcolon
        rw [← Bool.not_eq_true]
        intro hends
        rw [endsRawWord_of_endsWord hends] at hcolon
        exact Bool.noConfusion hcolon

/-- What may stand as a plain value. -/
structure Words (s : List Char) : Prop where
  printable : Printable s
  oneLine : s.any isRawBreak = false
  noMark : hasMark s = false
  head : s.head?.any isSpace = false
  last : s.getLast?.any isSpace = false

theorem words_of_plainAllowed (h : plainAllowed s = true) : Words s := by
  simp only [plainAllowed, Bool.not_eq_true', Bool.or_eq_false_iff] at h
  obtain ⟨⟨⟨⟨⟨hescapes, hraw⟩, -⟩, hmark⟩, hhead⟩, hlast⟩ := h
  exact ⟨(needsEscapes_eq_false_iff.mp hescapes).1, hraw, hmark, hhead, hlast⟩

theorem Words.noMarkFrom (h : Words s) : hasMarkFrom false s = false := by
  have hmark := h.noMark
  cases s with
  | nil => rfl
  | cons c s =>
    simp only [hasMark, startsAsMark, Bool.or_eq_false_iff] at hmark
    have hcolon : (c == ':' && endsRawWord s) = false := by
      have hstart := hmark.1.2
      cases hc : c == ':'
      · rfl
      · simpa [hc] using hstart
    simp [hasMarkFrom, hcolon, hmark.2]

theorem plain_words (h : Words s) (hm : m.column ≠ 0) (hrest : AtMargin rest) :
    ∃ m', m'.column = 0 ∧ plain false 1 ⟨m, s ++ '\n' :: rest⟩ = some ⟨s, true, ⟨m', rest⟩⟩ :=
  plainFrom_words [] none m h.printable h.oneLine h.noMarkFrom h.last rfl (fun _ => rfl) hm hrest

/-! ### Keys -/

theorem stands_of_isWordChar (h : isWordChar c = true) :
    (isSpaceOrTab c || isBreak c) = false ∧ c ≠ ':' := by
  refine ⟨?_, ?_⟩
  · rw [← Bool.not_eq_true]
    intro hc
    simp only [isSpaceOrTab, isBreak, Bool.or_eq_true, beq_iff_eq] at hc
    obtain (rfl | rfl) | (rfl | rfl) | rfl := hc <;> exact absurd h (by decide)
  · rintro rfl
    exact absurd h (by decide)

/-- A word up to a colon with a blank behind it. -/
theorem plainFrom_key (indent : Nat) (done : List Char) (m : Mark) (rest : List Char)
    (hs : ∀ c ∈ s, isWordChar c = true) :
    plainFrom false indent done none m (s ++ ':' :: ' ' :: rest) =
      some ⟨done.reverse ++ s, false, ⟨s.foldl Mark.next m, ':' :: ' ' :: rest⟩⟩ := by
  induction s generalizing done m with
  | nil => simp [plainFrom, isSpaceOrTab, isBreak, endsWord]
  | cons c s ih =>
    rw [List.forall_mem_cons] at hs
    obtain ⟨hblank, hcolon⟩ := stands_of_isWordChar hs.1
    rw [List.cons_append, plainFrom_char hblank (by simp) fun h => absurd h hcolon, ih _ _ hs.2]
    simp [Gap.fold]

end Vigil.Yaml
