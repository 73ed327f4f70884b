import Mathlib
import Vigil.Proofs.Yaml.Printable

/-! A text written line by line is read back, whatever breaks and blanks its lines begin and end
in. A reader takes one written character after the other (`Reading.step`); what the header says of
the last breaks is what the text ends in. -/
namespace Vigil.Yaml

variable {c : Char} {s text rest : List Char} {inLine : Bool} {chomp : Chomp} {b : BlockState}
  {m : Mark}

/-- Where a reader of a literal block stands that has read `text`. -/
structure Reading (text : List Char) (inLine : Bool) (b : BlockState) (m : Mark) : Prop where
  indent : b.indent = 2
  text_eq : b.done.reverse ++ b.lastBreak ++ b.laterBreaks = text
  line : inLine = text.getLast?.any fun c => !isBreak c
  /-- Inside a line no break waits for what comes next. -/
  inside : inLine = true → b.lastBreak = [] ∧ b.laterBreaks = []
  column : inLine = false → m.column = 0
  /-- A single break is the last of its line. -/
  single : (text.dropLast.getLast?.any fun c => !isBreak c) = true → b.laterBreaks = []

/-! ### Steps -/

theorem blockFrom_inLine :
    blockFrom false chomp 1 true b m (c :: rest) =
      if isBreak c then blockFrom false chomp 1 false { b with lastBreak := [c] } (m.newLine c) rest
      else blockFrom false chomp 1 true { b with done := c :: b.done } (m.next c) rest := by
  rw [blockFrom, if_pos rfl]

theorem blockFrom_emptyLine (hindent : m.column < b.indent) (hc : isBreak c = true)
    (hspace : c ≠ ' ') (htab : c ≠ '\t') :
    blockFrom false chomp 1 false b m (c :: rest) =
      blockFrom false chomp 1 false { b with laterBreaks := b.laterBreaks ++ [c] }
        (m.newLine c) rest := by
  rw [blockFrom]
  simp [hindent, hc, hspace, htab]

theorem blockFrom_space (hindent : b.indent = 0 ∨ m.column < b.indent) :
    blockFrom false chomp 1 false b m (' ' :: rest) =
      blockFrom false chomp 1 false { b with deepest := max b.deepest (m.column + 1) }
        (m.next ' ') rest := by
  rw [blockFrom]
  simp [hindent]

theorem blockFrom_indentation (chomp : Chomp) (hm : m.column = 0)
    (hindent : b.indent = 0 ∨ b.indent = 2) :
    ∃ m', m'.column = 2 ∧ ∀ rest, blockFrom false chomp 1 false b m (' ' :: ' ' :: rest) =
      blockFrom false chomp 1 false { b with deepest := max b.deepest 2 } m' rest := by
  have hsecond : (m.next ' ').column = 1 := by simp [Mark.next, hm]
  have hdeepest : max (max b.deepest 1) 2 = max b.deepest 2 := by omega
  refine ⟨(m.next ' ').next ' ', by simp [Mark.next, hm], fun rest => ?_⟩
  rw [blockFrom_space (by omega), blockFrom_space (by rw [hsecond]; dsimp only; omega), hsecond, hm]
  simp only [Nat.zero_add, Nat.reduceAdd, hdeepest]

/-- The state behind the first character of a line. -/
def BlockState.word (b : BlockState) (c : Char) : BlockState :=
  { b.startLine false c with done := c :: (b.startLine false c).done }

theorem BlockState.word_done (b : BlockState) (c : Char) :
    (b.word c).done = c :: (b.laterBreaks.reverse ++ b.lastBreak.reverse ++ b.done) := rfl

theorem blockFrom_word (hpos : 0 < b.indent) (hindent : m.column = b.indent)
    (hc : isBreak c = false) :
    blockFrom false chomp 1 false b m (c :: rest) =
      blockFrom false chomp 1 true (b.word c) (m.next c) rest := by
  rw [blockFrom]
  simp [hindent, hc, hpos.ne', BlockState.word]

/-- The first line shows the indentation where the header did not. -/
theorem blockFrom_firstWord (hzero : b.indent = 0) (hindent : max b.deepest 1 = m.column)
    (hc : isBreak c = false) (hspace : c ≠ ' ') (htab : c ≠ '\t') :
    blockFrom false chomp 1 false b m (c :: rest) =
      blockFrom false chomp 1 true ({ b with indent := m.column }.word c) (m.next c) rest := by
  rw [blockFrom]
  simp [hzero, hindent, hc, hspace, htab, BlockState.word]

theorem Reading.of_line {b' : BlockState} {m' : Mark} (hindent : b'.indent = 2)
    (htext : b'.done.reverse = text ++ [c]) (hlast : b'.lastBreak = [])
    (hlater : b'.laterBreaks = []) (hc : isBreak c = false) : Reading (text ++ [c]) true b' m' where
  indent := hindent
  text_eq := by simp [htext, hlast, hlater]
  line := by simp [hc]
  inside := fun _ => ⟨hlast, hlater⟩
  column := by simp
  single := fun _ => hlater

/-- Every line that is not empty stands two columns in, and a reader drops no more than that. -/
theorem Reading.step (chomp : Chomp) (h : Reading text inLine b m) (hc : isPrintable c = true)
    (s : List Char) :
    ∃ b' m', Reading (text ++ [c]) (!isBreak c) b' m' ∧ ∀ rest,
      blockFrom false chomp 1 inLine b m (literalBody (!inLine) (c :: s) ++ rest) =
        blockFrom false chomp 1 (!isBreak c) b' m' (literalBody (isBreak c) s ++ rest) := by
  have hraw := isRawBreak_of_isPrintable hc
  rw [literalBody, hraw]
  cases inLine with
  | true =>
    obtain ⟨hlast, hlater⟩ := h.inside rfl
    have htext : b.done.reverse = text := by simpa [hlast, hlater] using h.text_eq
    cases hbreak : isBreak c with
    | true =>
      refine ⟨{ b with lastBreak := [c] }, m.newLine c, ⟨h.indent, ?_, ?_, ?_, fun _ => rfl, ?_⟩,
        fun rest => ?_⟩
      · simp [htext, hlater]
      · simp [hbreak]
      · simp
      · exact fun _ => hlater
      · rw [if_pos rfl, List.cons_append, blockFrom_inLine, if_pos hbreak]
        rfl
    | false =>
      refine ⟨{ b with done := c :: b.done }, m.next c,
        .of_line h.indent (by simp [htext]) hlast hlater hbreak, fun rest => ?_⟩
      rw [if_neg (by simp)]
      simp [blockFrom_inLine, hbreak]
  | false =>
    have hm := h.column rfl
    cases hbreak : isBreak c with
    | true =>
      refine ⟨{ b with laterBreaks := b.laterBreaks ++ [c] }, m.newLine c,
        ⟨h.indent, ?_, ?_, ?_, fun _ => rfl, ?_⟩, fun rest => ?_⟩
      · simp [← h.text_eq]
      · simp [hbreak]
      · simp
      · rw [List.dropLast_concat, ← h.line]
        simp
      · rw [if_pos rfl, List.cons_append, blockFrom_emptyLine (by rw [hm, h.indent]; decide) hbreak
          (by rintro rfl; simp [isBreak] at hbreak) (ne_of_isPrintable hc (by decide))]
        rfl
    | false =>
      obtain ⟨m', hm', hread⟩ := blockFrom_indentation chomp hm (.inr h.indent)
      refine ⟨{ b with deepest := max b.deepest 2 }.word c, m'.next c,
        .of_line h.indent ?_ rfl rfl hbreak, fun rest => ?_⟩
      · simp [BlockState.word_done, ← h.text_eq]
      · rw [if_neg (by simp)]
        simp only [Bool.not_false, if_pos, List.cons_append, List.nil_append]
        rw [hread, blockFrom_word (by simp [h.indent]) (by simp [hm', h.indent]) hbreak]

theorem Reading.run (chomp : Chomp) (h : Reading text inLine b m) (hs : Printable s) :
    ∃ inLine' b' m', Reading (text ++ s) inLine' b' m' ∧ ∀ rest,
      blockFrom false chomp 1 inLine b m (literalBody (!inLine) s ++ rest) =
        blockFrom false chomp 1 inLine' b' m' rest := by
  induction s generalizing text inLine b m with
  | nil => exact ⟨inLine, b, m, by rwa [List.append_nil], fun _ => rfl⟩
  | cons c s ih =>
    obtain ⟨hc, hs⟩ := printable_cons.mp hs
    obtain ⟨b₁, m₁, hnext, hread⟩ := h.step chomp hc s
    obtain ⟨inLine', b', m', hlast, hrest⟩ := ih hnext hs
    rw [List.append_assoc, List.singleton_append] at hlast
    rw [Bool.not_not] at hrest
    exact ⟨inLine', b', m', hlast, fun rest => (hread rest).trans (hrest rest)⟩

/-! ### The header -/

/-- What the header says of the breaks a text ends in. -/
def chompOf (s : List Char) : Chomp :=
  if !s.getLast?.any isRawBreak then .strip
  else if s.length == 1 || s.dropLast.getLast?.any isRawBreak then .keep else .clip

def startsOpen (s : List Char) : Bool := s.head?.any fun c => isSpace c || isRawBreak c

theorem blockHeader_literalHints (s : List Char) :
    blockHeader ⟨m, literalHints s ++ '\n' :: rest⟩ =
      some (⟨chompOf s, if startsOpen s then 2 else 0⟩,
        ⟨(literalHints s).foldl Mark.next m, '\n' :: rest⟩) := by
  have hhints : literalHints s = (if startsOpen s then ['2'] else []) ++
      (if !s.getLast?.any isRawBreak then ['-']
        else if s.length == 1 || s.dropLast.getLast?.any isRawBreak then ['+'] else []) := rfl
  rw [hhints, chompOf]
  cases startsOpen s <;> cases s.getLast?.any isRawBreak <;>
    cases s.length == 1 || s.dropLast.getLast?.any isRawBreak <;>
    rfl

/-! ### Whole blocks -/

theorem printable_literalHints (s : List Char) : Printable (literalHints s) := by
  simp only [literalHints]
  split_ifs <;> simp [Printable, isPrintable]

theorem printable_literalBody (hs : Printable s) (atStart : Bool) :
    Printable (literalBody atStart s) := by
  induction s generalizing atStart with
  | nil => exact printable_nil
  | cons c s ih =>
    obtain ⟨hc, hs⟩ := printable_cons.mp hs
    have hspaces : Printable (if atStart then [' ', ' '] else []) := by
      cases atStart
      · exact printable_nil
      · exact .cons (by decide) (.cons (by decide) printable_nil)
    rw [literalBody]
    by_cases hcut : isRawBreak c = true
    · rw [if_pos hcut]
      exact .cons hc (ih hs true)
    · rw [if_neg hcut]
      exact hspaces.append (.cons hc (ih hs false))

theorem blockFrom_margin (chomp : Chomp) (hm : m.column = 0) (hindent : b.indent = 2)
    (hrest : AtMargin rest) :
    blockFrom false chomp 1 false b m rest = some (b.finish chomp, ⟨m, rest⟩) := by
  cases rest with
  | nil => rfl
  | cons c rest =>
    obtain ⟨hspace, hbreak, -⟩ := stands_of_isAlpha hrest
    rw [isSpaceOrTab, Bool.or_eq_false_iff, beq_eq_false_iff_ne, beq_eq_false_iff_ne] at hspace
    rw [blockFrom]
    simp [hm, hindent, hspace, hbreak]

theorem not_any_isBreak (hne : s ≠ []) (hs : Printable s) :
    (s.getLast?.any fun c => !isBreak c) = !s.getLast?.any isRawBreak := by
  rw [List.getLast?_eq_some_getLast hne, Option.any_some, Option.any_some,
    isRawBreak_of_isPrintable (hs _ (List.getLast_mem hne))]

/-- The breaks that are left of those a block ends in are the text's own. -/
theorem Reading.close (h : Reading s inLine b m) (hne : s ≠ []) (hs : Printable s)
    (hrest : AtMargin rest) :
    ∃ m', m'.column = 0 ∧ blockFrom false (chompOf s) 1 inLine b m
      ((if s.getLast?.any isRawBreak then [] else ['\n']) ++ rest) = some (s, ⟨m', rest⟩) := by
  have hline := h.line
  rw [not_any_isBreak hne hs] at hline
  cases hlast : s.getLast?.any isRawBreak with
  | false =>
    obtain rfl : inLine = true := by rw [hline, hlast, Bool.not_false]
    obtain ⟨hl, hr⟩ := h.inside rfl
    refine ⟨m.newLine '\n', rfl, ?_⟩
    have hend := blockFrom_margin (chompOf s) (m := m.newLine '\n')
      (b := { b with lastBreak := ['\n'] }) rfl h.indent hrest
    rw [if_neg (by simp), List.singleton_append, blockFrom_inLine,
      if_pos (show isBreak '\n' = true from rfl), hend]
    have htext := h.text_eq
    rw [hl, hr, List.append_nil, List.append_nil] at htext
    simp [chompOf, hlast, BlockState.finish, htext]
  | true =>
    obtain rfl : inLine = false := by rw [hline, hlast, Bool.not_true]
    refine ⟨m, h.column rfl, ?_⟩
    rw [if_pos rfl, List.nil_append, blockFrom_margin _ (h.column rfl) h.indent hrest]
    have htext := h.text_eq
    cases hboth : s.length == 1 || s.dropLast.getLast?.any isRawBreak with
    | true => simp [chompOf, hlast, hboth, BlockState.finish, htext]
    | false =>
      rw [Bool.or_eq_false_iff, beq_eq_false_iff_ne] at hboth
      have hpos := List.length_pos_iff.mpr hne
      have hinit : s.dropLast ≠ [] := by
        rw [← List.length_pos_iff, List.length_dropLast]
        omega
      have hlater := h.single (by
        rw [not_any_isBreak hinit fun c hc => hs c (List.mem_of_mem_dropLast hc), hboth.2]
        rfl)
      rw [hlater, List.append_nil] at htext
      simp [chompOf, hlast, hboth, BlockState.finish, htext]

/-- Up to where the reader knows the indentation. -/
theorem exists_reading (chomp : Chomp) (hne : s ≠ []) (hs : Printable s) (hm : m.column = 0) :
    ∃ inLine b m', Reading s inLine b m' ∧ ∀ rest,
      blockFrom false chomp 1 false { indent := if startsOpen s then 2 else 0 } m
        (literalBody true s ++ rest) = blockFrom false chomp 1 inLine b m' rest := by
  cases hopen : startsOpen s with
  | true =>
    have h : Reading [] false { indent := 2 } m := ⟨rfl, rfl, rfl, by simp, fun _ => hm, by simp⟩
    exact h.run chomp hs
  | false =>
    -- the first line begins with a word, which stands where all lines have to
    cases s with
    | nil => exact absurd rfl hne
    | cons c s =>
      obtain ⟨hc, hs⟩ := printable_cons.mp hs
      obtain ⟨hspace, hraw⟩ : isSpace c = false ∧ isRawBreak c = false := by
        simpa [startsOpen] using hopen
      have hbreak : isBreak c = false := isRawBreak_of_isPrintable hc ▸ hraw
      obtain ⟨m', hm', hread⟩ :=
        blockFrom_indentation (b := { indent := 0 }) chomp hm (.inl rfl)
      have h : Reading ([] ++ [c]) true (({ indent := 2, deepest := 2 } : BlockState).word c)
          (m'.next c) := .of_line rfl rfl rfl rfl hbreak
      obtain ⟨inLine, b, m₂, hlast, hrest⟩ := h.run chomp hs
      refine ⟨inLine, b, m₂, hlast, fun rest => ?_⟩
      rw [← hrest rest, literalBody]
      simp only [hraw, Bool.not_true, Bool.false_eq_true, if_false, if_true, List.cons_append,
        List.nil_append]
      rw [hread, blockFrom_firstWord rfl (by simp [hm']) hbreak (by simpa [isSpace] using hspace)
        (ne_of_isPrintable hc (by decide)), hm']
      rfl

theorem block_literal (hne : s ≠ []) (hs : Printable s) (hrest : AtMargin rest) :
    ∃ m', m'.column = 0 ∧ block false 1 ⟨m, literalHints s ++ '\n' :: (literalBody true s ++
      ((if s.getLast?.any isRawBreak then [] else ['\n']) ++ rest))⟩ =
        some (s, ⟨m', rest⟩) := by
  obtain ⟨inLine, b, m₂, hlast, hread⟩ := exists_reading (chompOf s)
    (m := ((literalHints s).foldl Mark.next m).newLine '\n') hne hs rfl
  obtain ⟨m', hm', hclose⟩ := hlast.close hne hs hrest
  refine ⟨m', hm', ?_⟩
  rw [← hclose, ← hread, block, blockHeader_literalHints]
  cases startsOpen s <;> rfl

end Vigil.Yaml
