import Mathlib
import Vigil.Proofs.Yaml.Printable

/-! A text written between quotes is read back. A reader holds blanks and line breaks in a gap until
the next character shows what they stand for; `Gap.Before` says which gaps stand for themselves. -/
namespace Vigil.Yaml

variable {c : Char} {s rest done : List Char} {gap : Option Gap} {m : Mark}

/-! ### Gaps -/

namespace Gap

/-- No break of the gap folds and no blank in it is dropped where `s` follows. -/
def Before (g : Gap) (s : List Char) : Prop :=
  if g.broken then g.firstBreak ≠ ['\n'] ∧ s.head?.any isSpace = false
  else g.blanks ≠ [] → s.head?.any isRawBreak = false

theorem before_empty (s : List Char) : Before {} s := fun h => absurd rfl h

theorem fold_getD : (gap.map fold).getD [] = (gap.getD {}).fold := by
  cases gap <;> rfl

variable {g : Gap}

theorem push_space_of_broken (h : g.broken = true) : g.push ' ' = g := by
  have hbreak : isBreak ' ' = false := rfl
  simp [push, hbreak, h]

theorem fold_push_space (h : g.broken = false) : (g.push ' ').fold = g.fold ++ [' '] := by
  have hbreak : isBreak ' ' = false := rfl
  simp [push, fold, hbreak, h]

theorem broken_push_space : (g.push ' ').broken = g.broken := by
  have hbreak : isBreak ' ' = false := rfl
  cases h : g.broken <;> simp [push, hbreak, h]

theorem broken_push_break (hc : isBreak c = true) : (g.push c).broken = true := by
  cases h : g.broken <;> simp [push, hc, h]

/-- A break other than a line feed stands for itself. -/
theorem fold_push_break (h : g.Before (c :: s)) (hc : isBreak c = true) (hraw : isRawBreak c = true)
    (hfeed : c ≠ '\n') : (g.push c).fold = g.fold ++ [c] := by
  cases hbroken : g.broken with
  | true =>
    rw [Before, if_pos hbroken] at h
    simp [push, fold, hc, hbroken, h.1]
  | false =>
    rw [Before, if_neg (by simp [hbroken])] at h
    have hblanks : g.blanks = [] := by
      by_contra hne
      simp [hraw] at h
      exact hne h
    simp [push, fold, hc, hbroken, hblanks, hfeed]

theorem before_push_space (hbroken : g.broken = false) (hs : s.head?.any isRawBreak = false) :
    (g.push ' ').Before s := by
  rw [Before, if_neg (by simp [broken_push_space, hbroken])]
  exact fun _ => hs

theorem before_push_break (h : g.Before (c :: s)) (hc : isBreak c = true) (hfeed : c ≠ '\n')
    (hs : s.head?.any isSpace = false) : (g.push c).Before s := by
  rw [Before, if_pos (broken_push_break hc)]
  refine ⟨?_, hs⟩
  cases hbroken : g.broken with
  | true =>
    rw [Before, if_pos hbroken] at h
    simpa [push, hc, hbroken] using h.1
  | false => simpa [push, hc, hbroken] using hfeed

end Gap

/-! ### Steps -/

variable {single : Bool}

theorem quotedFrom_blank (hc : (isSpaceOrTab c || isBreak c) = true) :
    quotedFrom single done gap none m (c :: rest) =
      quotedFrom single done (some ((gap.getD {}).push c)) none (m.past c) rest := by
  rw [quotedFrom]
  exact if_pos hc

def quoteMark (single : Bool) : Char := if single then '\x27' else '\x22'

theorem quotedFrom_end (hm : m.column ≠ 0) :
    quotedFrom single done gap none m (quoteMark single :: '\n' :: rest) =
      some (done.reverse ++ (gap.getD {}).fold, ⟨m.next (quoteMark single), '\n' :: rest⟩) := by
  cases single <;> simp [quotedFrom, quoteMark, isSpaceOrTab, isBreak, hm, Gap.fold_getD]

theorem quotedFrom_char (hc : (isSpaceOrTab c || isBreak c) = false) (hm : m.column ≠ 0)
    (hplain : if single then c ≠ '\x27' else c ≠ '\x22' ∧ c ≠ '\\') :
    quotedFrom single done gap none m (c :: rest) =
      quotedFrom single (c :: ((gap.getD {}).fold.reverse ++ done)) none none (m.next c) rest := by
  rw [quotedFrom]
  cases single <;> simp_all [Gap.fold_getD]

theorem quotedFrom_doubledQuote (hm : m.column ≠ 0) :
    quotedFrom true done gap none m ('\x27' :: '\x27' :: rest) =
      quotedFrom true ('\x27' :: ((gap.getD {}).fold.reverse ++ done)) none none
        ((m.next '\x27').next '\x27') rest := by
  simp [quotedFrom, isSpaceOrTab, isBreak, hm, Gap.fold_getD]

/-! ### Single quotes -/

/-- Behind a break the two spaces in front of the next word belong to nobody. -/
theorem quotedFrom_indentation (single : Bool) (done : List Char) {broken : Bool}
    (h : (gap.getD {}).broken = broken) (hm : broken = false → m.column ≠ 0) :
    ∃ gap' m', gap'.getD {} = gap.getD {} ∧ m'.column ≠ 0 ∧
      ∀ s, quotedFrom single done gap none m ((if broken then [' ', ' '] else []) ++ s) =
        quotedFrom single done gap' none m' s := by
  cases broken with
  | false => exact ⟨gap, m, rfl, hm rfl, fun _ => rfl⟩
  | true =>
    refine ⟨some (gap.getD {}), (m.past ' ').past ' ', rfl, Nat.succ_ne_zero _, fun s => ?_⟩
    change quotedFrom single done gap none m (' ' :: ' ' :: s) = _
    rw [quotedFrom_blank rfl, quotedFrom_blank rfl, Option.getD_some,
      Gap.push_space_of_broken h, Gap.push_space_of_broken h]

/-- What single quotes can hold. -/
structure Single (s : List Char) : Prop where
  printable : Printable s
  noFeed : '\n' ∉ s
  noSpaceBreak : hasPair isSpace isRawBreak s = false
  noBreakSpace : hasPair isRawBreak isSpace s = false

theorem Single.tail (h : Single (c :: s)) : Single s where
  printable := (printable_cons.mp h.printable).2
  noFeed := fun hs => h.noFeed (List.mem_cons_of_mem _ hs)
  noSpaceBreak := (Bool.or_eq_false_iff.mp (hasPair_cons ▸ h.noSpaceBreak)).2
  noBreakSpace := (Bool.or_eq_false_iff.mp (hasPair_cons ▸ h.noBreakSpace)).2

theorem Single.next_of_space (h : Single (' ' :: s)) : s.head?.any isRawBreak = false := by
  have hpair := h.noSpaceBreak
  rw [hasPair_cons, Bool.or_eq_false_iff] at hpair
  simpa [isSpace] using hpair.1

theorem Single.next_of_break (h : Single (c :: s)) (hc : isRawBreak c = true) :
    s.head?.any isSpace = false := by
  have hpair := h.noBreakSpace
  rw [hasPair_cons, Bool.or_eq_false_iff] at hpair
  simpa [hc] using hpair.1

/-- Where a reader stands that has `text` behind it and `s` ahead. -/
structure Standing (text s : List Char) (broken : Bool) (done : List Char) (gap : Option Gap)
    (m : Mark) : Prop where
  text_eq : done.reverse ++ (gap.getD {}).fold = text
  before : (gap.getD {}).Before s
  broken_eq : (gap.getD {}).broken = broken
  column : broken = false → m.column ≠ 0

theorem standing_closed {text : List Char} (h : done.reverse = text) (hm : m.column ≠ 0) :
    Standing text s false done none m where
  text_eq := by simp [h, Gap.fold]
  before := Gap.before_empty s
  broken_eq := rfl
  column := fun _ => hm

variable {text : List Char} {broken : Bool}

theorem Standing.break (h : Standing text (c :: s) broken done gap m) (hs : Single (c :: s))
    (hcut : isRawBreak c = true) :
    Standing (text ++ [c]) s true done (some ((gap.getD {}).push c)) (m.past c) := by
  have hc : isBreak c = true :=
    isRawBreak_of_isPrintable (hs.printable c List.mem_cons_self) ▸ hcut
  have hfeed : c ≠ '\n' := fun hc => hs.noFeed (hc ▸ List.mem_cons_self)
  refine ⟨?_, Gap.before_push_break h.before hc hfeed (hs.next_of_break hcut),
    Gap.broken_push_break hc, by simp⟩
  rw [Option.getD_some, Gap.fold_push_break h.before hc hcut hfeed, ← List.append_assoc, h.text_eq]

theorem Standing.not_broken (h : Standing text (' ' :: s) broken done gap m) : broken = false := by
  by_contra hne
  have hbefore := h.before
  rw [Gap.Before, if_pos (h.broken_eq.trans (by simpa using hne))] at hbefore
  simp [isSpace] at hbefore

theorem Standing.space (h : Standing text (' ' :: s) false done gap m) (hs : Single (' ' :: s)) :
    Standing (text ++ [' ']) s false done (some ((gap.getD {}).push ' ')) (m.past ' ') := by
  refine ⟨?_, Gap.before_push_space h.broken_eq hs.next_of_space,
    Gap.broken_push_space.trans h.broken_eq, fun _ => Nat.succ_ne_zero _⟩
  rw [Option.getD_some, Gap.fold_push_space h.broken_eq, ← List.append_assoc, h.text_eq]

theorem Standing.step (h : Standing text (c :: s) broken done gap m) (hs : Single (c :: s)) :
    ∃ broken' done' gap' m', Standing (text ++ [c]) s broken' done' gap' m' ∧
      ∀ rest, quotedFrom true done gap none m (singleBody broken (c :: s) ++ rest) =
        quotedFrom true done' gap' none m' (singleBody broken' s ++ rest) := by
  have hprint := hs.printable c List.mem_cons_self
  have hraw := isRawBreak_of_isPrintable hprint
  have hblank := isSpaceOrTab_of_isPrintable hprint
  by_cases hcut : isRawBreak c = true
  · refine ⟨_, _, _, _, h.break hs hcut, fun rest => ?_⟩
    rw [singleBody, if_pos hcut, List.cons_append,
      quotedFrom_blank (by rw [← hraw, hcut, Bool.or_true])]
  by_cases hspace : c = ' '
  · subst hspace
    obtain rfl := h.not_broken
    exact ⟨_, _, _, _, h.space hs, fun rest => quotedFrom_blank rfl⟩
  -- a character that is no blank closes the gap
  obtain ⟨gap', m', hgap, hm, hread⟩ := quotedFrom_indentation true done h.broken_eq h.column
  have htext : (c :: ((gap'.getD {}).fold.reverse ++ done)).reverse = text ++ [c] := by
    simp [hgap, ← h.text_eq]
  simp only [singleBody, if_neg hcut, List.append_assoc, hread]
  split_ifs with hquote
  · rw [beq_iff_eq] at hquote
    subst hquote
    exact ⟨_, _, _, _, standing_closed htext (Nat.succ_ne_zero _),
      fun rest => quotedFrom_doubledQuote hm⟩
  · have hstands : (isSpaceOrTab c || isBreak c) = false := by
      rw [hblank, ← hraw]
      simpa [isSpace, hspace] using hcut
    exact ⟨_, _, _, _, standing_closed htext (Nat.succ_ne_zero _),
      fun rest => quotedFrom_char hstands hm (by simpa using hquote)⟩

theorem quotedFrom_singleBody (h : Standing text s broken done gap m) (hs : Single s) :
    ∃ m', quotedFrom true done gap none m (singleBody broken s ++ '\x27' :: '\n' :: rest) =
      some (text ++ s, ⟨m', '\n' :: rest⟩) := by
  induction s generalizing text broken done gap m with
  | nil =>
    obtain ⟨gap', m', hgap, hm, hread⟩ := quotedFrom_indentation true done h.broken_eq h.column
    have hend : quotedFrom true done gap' none m' ('\x27' :: '\n' :: rest) = _ := quotedFrom_end hm
    rw [hgap, h.text_eq, ← List.append_nil text] at hend
    exact ⟨_, (hread _).trans hend⟩
  | cons c s ih =>
    obtain ⟨_, _, _, _, hnext, hread⟩ := h.step hs
    obtain ⟨m', hrest⟩ := ih hnext hs.tail
    refine ⟨m', (hread _).trans (hrest.trans ?_)⟩
    rw [List.append_assoc, List.singleton_append]

theorem printable_singleBody (hs : Printable s) (broken : Bool) :
    Printable (singleBody broken s) := by
  have hspaces (broken : Bool) : Printable (if broken then [' ', ' '] else []) := by
    cases broken
    · exact printable_nil
    · exact .cons (by decide) (.cons (by decide) printable_nil)
  induction s generalizing broken with
  | nil => exact hspaces broken
  | cons c s ih =>
    obtain ⟨hc, hs⟩ := printable_cons.mp hs
    have hword : Printable (if c == '\x27' then ['\x27', '\x27'] else [c]) := by
      split_ifs
      · exact .cons (by decide) (.cons (by decide) printable_nil)
      · exact .cons hc printable_nil
    rw [singleBody]
    by_cases hcut : isRawBreak c = true
    · rw [if_pos hcut]
      exact .cons hc (ih hs true)
    · rw [if_neg hcut]
      exact ((hspaces broken).append hword).append (ih hs false)

theorem quoted_single (hs : Single s) (hm : m.column ≠ 0) :
    ∃ m', quoted true ⟨m, singleBody false s ++ '\x27' :: '\n' :: rest⟩ =
      some (s, ⟨m', '\n' :: rest⟩) :=
  quotedFrom_singleBody (standing_closed rfl hm) hs

/-! ### Double quotes -/

theorem scalarValue?_toNat (c : Char) : scalarValue? c.toNat = some c := by
  have hvalid : c.toNat < 0xD800 ∨ (0xDFFF < c.toNat ∧ c.toNat < 0x110000) := c.valid
  rw [scalarValue?, if_pos, Char.ofNat_toNat]
  simp
  omega

/-- The digits of an escape are taken one after the other. -/
theorem quotedFrom_code (single : Bool) (done : List Char) (m : Mark) {ds : List Char}
    {value : Nat} (hds : ds ≠ []) (h : Text.digitsFrom? 16 value ds = some c.toNat) :
    ∃ m', m'.column ≠ 0 ∧ ∀ rest,
      quotedFrom single done none (some (ds.length, value)) m (ds ++ rest) =
        quotedFrom single (c :: done) none none m' rest := by
  induction ds generalizing value m with
  | nil => exact absurd rfl hds
  | cons d ds ih =>
    cases hdigit : digit? 16 d with
    | none => simp [Text.digitsFrom?, hdigit] at h
    | some n =>
      simp only [Text.digitsFrom?, hdigit, Option.bind_some] at h
      cases ds with
      | nil =>
        have hvalue : value * 16 + n = c.toNat := by simpa [Text.digitsFrom?] using h
        refine ⟨m.next d, Nat.succ_ne_zero _, fun rest => ?_⟩
        simp [quotedFrom, hdigit, hvalue, scalarValue?_toNat]
      | cons e ds =>
        obtain ⟨m', hm', hread⟩ := ih (m.next d) (List.cons_ne_nil _ _) h
        refine ⟨m', hm', fun rest => ?_⟩
        rw [← hread rest]
        simp [quotedFrom, hdigit]

theorem digitsFrom?_upperHex (width n : Nat) :
    Text.digitsFrom? 16 0 (upperHex width n) = some n := by
  rw [upperHex, Text.digitsFrom?_zeros _ _ (by decide), Text.digitsFrom?_toUpper,
    Text.digitsFrom?_toDigits (by decide) (by decide)]

theorem length_upperHex {width n : Nat} (hwidth : 0 < width) (h : n < 16 ^ width) :
    (upperHex width n).length = width := by
  have : (Nat.toDigits 16 n).length ≤ width :=
    (Nat.length_toDigits_le_iff (by decide) hwidth).mpr h
  simp only [upperHex, List.length_append, List.length_replicate, List.length_map]
  omega

/-- Characters that a backslash may stand in front of. -/
def IsLetter (e : Char) : Prop := isPrintable e = true ∧ isBreak e = false

/-- Behind a backslash these characters stand for `c`: one letter, or a letter and the number of
`c`. -/
def Escapes (c : Char) (s : List Char) : Prop :=
  (∃ e, s = [e] ∧ escaped? e = some c ∧ IsLetter e) ∨
    ∃ e width, s = e :: upperHex width c.toNat ∧ escaped? e = none ∧
      escapeDigits? e = some width ∧ 0 < width ∧ c.toNat < 16 ^ width ∧ IsLetter e

theorem escapes_letter {n : Nat} (e : Char) (he : escaped? e = some (Char.ofNat n))
    (hletter : IsLetter e) (h : (c.toNat == n) = true) : Escapes c [e] := by
  refine .inl ⟨e, rfl, ?_, hletter⟩
  rw [he, ← beq_iff_eq.mp h, Char.ofNat_toNat]

theorem escapes_self (hc : escaped? c = some c) (hletter : IsLetter c) : Escapes c [c] :=
  .inl ⟨c, rfl, hc, hletter⟩

theorem escapes_escapeChar (c : Char) : Escapes c (escapeChar c) := by
  have hvalid : c.toNat < 0xD800 ∨ (0xDFFF < c.toNat ∧ c.toNat < 0x110000) := c.valid
  unfold escapeChar
  refine iteInduction (escapes_letter '0' rfl ⟨rfl, rfl⟩) fun _ => ?_
  refine iteInduction (escapes_letter 'a' rfl ⟨rfl, rfl⟩) fun _ => ?_
  refine iteInduction (escapes_letter 'b' rfl ⟨rfl, rfl⟩) fun _ => ?_
  refine iteInduction (escapes_letter 't' rfl ⟨rfl, rfl⟩) fun _ => ?_
  refine iteInduction (escapes_letter 'n' rfl ⟨rfl, rfl⟩) fun _ => ?_
  refine iteInduction (escapes_letter 'v' rfl ⟨rfl, rfl⟩) fun _ => ?_
  refine iteInduction (escapes_letter 'f' rfl ⟨rfl, rfl⟩) fun _ => ?_
  refine iteInduction (escapes_letter 'r' rfl ⟨rfl, rfl⟩) fun _ => ?_
  refine iteInduction (escapes_letter 'e' rfl ⟨rfl, rfl⟩) fun _ => ?_
  refine iteInduction (fun hself => ?_) fun _ => ?_
  · obtain h | h := Bool.or_eq_true_iff.mp hself
    · obtain rfl : Char.ofNat 0x22 = c := by rw [← beq_iff_eq.mp h, Char.ofNat_toNat]
      exact escapes_self rfl ⟨rfl, rfl⟩
    · obtain rfl : Char.ofNat 0x5C = c := by rw [← beq_iff_eq.mp h, Char.ofNat_toNat]
      exact escapes_self rfl ⟨rfl, rfl⟩
  refine iteInduction (escapes_letter 'N' rfl ⟨rfl, rfl⟩) fun _ => ?_
  refine iteInduction (escapes_letter 'L' rfl ⟨rfl, rfl⟩) fun _ => ?_
  refine iteInduction (escapes_letter 'P' rfl ⟨rfl, rfl⟩) fun _ => ?_
  refine iteInduction (fun h2 => ?_) fun _ => ?_
  · exact .inr ⟨'x', 2, rfl, rfl, rfl, by decide, by omega, rfl, rfl⟩
  refine iteInduction (fun h4 => ?_) fun _ => ?_
  · exact .inr ⟨'u', 4, rfl, rfl, rfl, by decide, by omega, rfl, rfl⟩
  · exact .inr ⟨'U', 8, rfl, rfl, rfl, by decide, by omega, rfl, rfl⟩

theorem printable_escapeChar (c : Char) : Printable (escapeChar c) := by
  obtain ⟨e, hc, -, hletter, -⟩ | ⟨e, width, hc, -, -, -, -, hletter, -⟩ := escapes_escapeChar c
  · rw [hc]
    exact .cons hletter printable_nil
  · rw [hc]
    exact .cons hletter (printable_digits (digitsFrom?_upperHex width c.toNat))

theorem printable_doubleBody (s : List Char) : Printable (doubleBody s) := by
  intro d hd
  obtain ⟨c, -, hd⟩ := List.mem_flatMap.mp hd
  split_ifs at hd with hescape
  · exact Printable.cons (by decide) (printable_escapeChar c) d hd
  · rw [List.mem_singleton.mp hd]
    simp only [Bool.or_eq_true, not_or, Bool.not_eq_true', Bool.not_eq_false] at hescape
    exact hescape.1.1.1

theorem quotedFrom_escapeChar (c : Char) (done : List Char) (gap : Option Gap)
    (hm : m.column ≠ 0) :
    ∃ m', m'.column ≠ 0 ∧ ∀ rest,
      quotedFrom false done gap none m ('\\' :: (escapeChar c ++ rest)) =
        quotedFrom false (c :: ((gap.getD {}).fold.reverse ++ done)) none none m' rest := by
  have hslash : (isSpaceOrTab '\\' || isBreak '\\') = false := rfl
  obtain ⟨e, hc, he, -, hbreak⟩ | ⟨e, width, hc, he, hdigits, hpos, hwidth, -, hbreak⟩ :=
    escapes_escapeChar c
  · refine ⟨(m.next '\\').next e, Nat.succ_ne_zero _, fun rest => ?_⟩
    rw [hc]
    simp [quotedFrom, hslash, hm, he, hbreak, Gap.fold_getD]
  · have hlength := length_upperHex hpos hwidth
    have hne : upperHex width c.toNat ≠ [] := by
      rw [← List.length_pos_iff, hlength]
      exact hpos
    obtain ⟨m', hm', hread⟩ := quotedFrom_code false ((gap.getD {}).fold.reverse ++ done)
      ((m.next '\\').next e) hne
      (digitsFrom?_upperHex width c.toNat)
    refine ⟨m', hm', fun rest => ?_⟩
    rw [← hread rest, hlength, hc]
    simp [quotedFrom, hslash, hm, he, hdigits, hbreak, Gap.fold_getD]

/-- No break stands between double quotes as it is, so a gap holds spaces alone. -/
theorem Standing.doubleStep (h : Standing text [] false done gap m) (c : Char) :
    ∃ done' gap' m', Standing (text ++ [c]) [] false done' gap' m' ∧
      ∀ rest, quotedFrom false done gap none m (doubleBody [c] ++ rest) =
        quotedFrom false done' gap' none m' rest := by
  have hclosed : (c :: ((gap.getD {}).fold.reverse ++ done)).reverse = text ++ [c] := by
    simp [← h.text_eq]
  have hm := h.column rfl
  by_cases hescape : (!isPrintable c || isRawBreak c || c == '\x22' || c == '\\') = true
  · obtain ⟨m', hm', hread⟩ := quotedFrom_escapeChar c done gap hm
    refine ⟨_, _, _, standing_closed hclosed hm', fun rest => ?_⟩
    rw [← hread, doubleBody, List.flatMap_singleton, if_pos hescape, List.cons_append]
  have hbody : doubleBody [c] = [c] := by
    rw [doubleBody, List.flatMap_singleton, if_neg hescape]
  simp only [Bool.or_eq_true, not_or, Bool.not_eq_true, Bool.not_eq_false', beq_iff_eq] at hescape
  obtain ⟨⟨⟨hprint, hraw⟩, hquote⟩, hslash⟩ := hescape
  rw [hbody]
  by_cases hspace : c = ' '
  · subst hspace
    refine ⟨done, some ((gap.getD {}).push ' '), m.past ' ', ⟨?_,
      Gap.before_push_space h.broken_eq rfl, Gap.broken_push_space.trans h.broken_eq,
      fun _ => Nat.succ_ne_zero _⟩, fun rest => quotedFrom_blank rfl⟩
    rw [Option.getD_some, Gap.fold_push_space h.broken_eq, ← List.append_assoc, h.text_eq]
  · have hstands : (isSpaceOrTab c || isBreak c) = false := by
      rw [isSpaceOrTab_of_isPrintable hprint, ← isRawBreak_of_isPrintable hprint, hraw]
      simpa [isSpace] using hspace
    exact ⟨_, _, _, standing_closed hclosed (Nat.succ_ne_zero _),
      fun rest => quotedFrom_char hstands hm ⟨hquote, hslash⟩⟩

theorem quotedFrom_doubleBody (h : Standing text [] false done gap m) (s : List Char) :
    ∃ m', quotedFrom false done gap none m (doubleBody s ++ '\x22' :: '\n' :: rest) =
      some (text ++ s, ⟨m', '\n' :: rest⟩) := by
  induction s generalizing text done gap m with
  | nil =>
    have hend : quotedFrom false done gap none m ('\x22' :: '\n' :: rest) = _ :=
      quotedFrom_end (h.column rfl)
    rw [h.text_eq, ← List.append_nil text] at hend
    exact ⟨_, hend⟩
  | cons c s ih =>
    obtain ⟨_, _, _, hnext, hread⟩ := h.doubleStep c
    obtain ⟨m', hrest⟩ := ih hnext
    have hbody : doubleBody (c :: s) = doubleBody [c] ++ doubleBody s := by simp [doubleBody]
    refine ⟨m', ?_⟩
    rw [hbody, List.append_assoc, hread, hrest, List.append_assoc, List.singleton_append]

theorem quoted_double (s : List Char) (hm : m.column ≠ 0) :
    ∃ m', quoted false ⟨m, doubleBody s ++ '\x22' :: '\n' :: rest⟩ =
      some (s, ⟨m', '\n' :: rest⟩) :=
  quotedFrom_doubleBody (standing_closed rfl hm) s

end Vigil.Yaml
