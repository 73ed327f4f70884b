import Mathlib
import Vigil.Proofs.Yaml.Values
import Vigil.Yaml.Anchors

/-! A text of lines, each a key and its value, is read as the mapping of the keys to the values. -/
namespace Vigil.Yaml

open Lexer

variable {opened : Bool} {m : Mark} {tokens : List Token} {c : Char} {s rest key : List Char}

/-! ### Keys -/

/-- Words of up to 256 characters that begin with a letter. -/
structure IsKey (key : List Char) : Prop where
  letter : key.head?.any Char.isAlpha = true
  word : ∀ c ∈ key, isWordChar c = true
  short : key.length ≤ 256

theorem isKey_of_all (hletter : key.head?.any Char.isAlpha = true)
    (hword : key.all isWordChar = true) (hshort : key.length ≤ 256) : IsKey key :=
  ⟨hletter, List.all_eq_true.mp hword, hshort⟩

theorem foldl_next (s : List Char) (m : Mark) :
    (s.foldl Mark.next m).line = m.line ∧ (s.foldl Mark.next m).column = m.column + s.length ∧
      (s.foldl Mark.next m).offset ≤ m.offset + 4 * s.length := by
  induction s generalizing m with
  | nil => simp
  | cons c s ih =>
    obtain ⟨hline, hcolumn, hoffset⟩ := ih (m.next c)
    have hsize := c.utf8Size_le_four
    have hnext : (m.next c).column = m.column + 1 ∧ (m.next c).offset = m.offset + c.utf8Size :=
      ⟨rfl, rfl⟩
    rw [List.foldl_cons, List.length_cons]
    exact ⟨hline, by omega, by omega⟩

/-- The lexer between a key and its colon. -/
def atColon (opened : Bool) (m : Mark) (tokens : List Token) (key rest : List Char) : Lexer :=
  { topLevel opened false (key.foldl Mark.next m) (.scalar .plain key :: tokens)
      (':' :: ' ' :: rest) with
    places := [some ⟨opened, tokens.length, m⟩] }

theorem isIndicator_of_isAlpha (h : c.isAlpha = true) : isIndicator c = false := by
  have hnone : "-?:,[]{}#&*!|>\x27\x22%@\x60".toList.all fun d => !d.isAlpha := rfl
  rw [← Bool.not_eq_true]
  intro hc
  have hnot := List.all_eq_true.mp hnone c (List.contains_iff_mem.mp hc)
  rw [h] at hnot
  exact Bool.noConfusion hnot

theorem token_key (hkey : IsKey key) (hm : m.column = 0) (hc : key = c :: s) :
    token c (s ++ ':' :: ' ' :: rest) (topLevel opened true m tokens (key ++ ':' :: ' ' :: rest)) =
      some (atColon opened m tokens key rest) := by
  have hletter : c.isAlpha = true := by
    have hhead := hkey.letter
    rwa [hc] at hhead
  have hbegins : Begins c (s ++ ':' :: ' ' :: rest) :=
    .inl ⟨isIndicator_of_isAlpha hletter, (stands_of_isAlpha hletter).1⟩
  have hdocument : isDocumentMark (c :: (s ++ ':' :: ' ' :: rest)) = false := by
    unfold isDocumentMark
    split
    · next h => exact absurd (List.cons.inj h).1 (ne_of_isAlpha hletter (by decide))
    · next h => exact absurd (List.cons.inj h).1 (ne_of_isAlpha hletter (by decide))
    · rfl
  have hread (indent : Nat) := plainFrom_key indent [] m rest hkey.word
  rw [token_of_begins (indent_topLevel_le opened _) rfl
    (fun _ => ⟨ne_of_isAlpha hletter (by decide), hdocument⟩) hbegins]
  cases opened <;>
    simp_all [plainScalar, topLevel, savePlace, dropPlace, inFlow, least, plain, emit, atColon]

/-- The tokens in front of a value, the latest first. -/
def keyTokens (opened : Bool) (tokens : List Token) (key : List Char) : List Token :=
  .value :: .scalar .plain key :: .key :: (if opened then tokens else .blockMapStart :: tokens)

theorem token_colon (hkey : IsKey key) (hm : m.column = 0) :
    token ':' (' ' :: rest) (atColon opened m tokens key rest) =
      some (topLevel true false ((key.foldl Mark.next m).next ':') (keyTokens opened tokens key)
        (' ' :: rest)) := by
  have hcolumn : (key.foldl Mark.next m).column ≠ 0 := by
    have hne : 0 < key.length := by
      rw [List.length_pos_iff]
      rintro rfl
      exact absurd hkey.letter (by decide)
    have := (foldl_next key m).2.1
    omega
  have hindent : (atColon opened m tokens key rest).indent ≤
      ((atColon opened m tokens key rest).cursor.mark.column : Int) := by
    cases opened <;> simp [atColon, topLevel]
  have hword : endsWord (' ' :: rest) = true := rfl
  have hone : tokens.length + 1 - tokens.length = 1 := by omega
  have htwo : tokens.length + 1 + 1 - tokens.length = 2 := by omega
  rw [token, unrollTo_of_le hindent]
  cases opened <;>
    simp [atColon, topLevel, hcolumn, hm, hword, hone, htwo, inFlow, valueMark, insertAt, rollTo,
      emit, passing, Cursor.take, keyTokens]

/-- The place of a key is kept up to its colon. -/
theorem dropStale_atColon (hkey : IsKey key) :
    (atColon opened m tokens key rest).dropStale = some (atColon opened m tokens key rest) := by
  obtain ⟨hline, -, hoffset⟩ := foldl_next key m
  have hshort := hkey.short
  have hfresh : isStale (key.foldl Mark.next m) ⟨opened, tokens.length, m⟩ = false := by
    simp [isStale, hline]
    omega
  simp [dropStale, atColon, topLevel, hfresh]

theorem skip_atColon :
    (atColon opened m tokens key rest).skip = atColon opened m tokens key rest := by
  simp [skip, atColon, topLevel, inFlow, skipFrom, isBreak]

theorem run_key (hkey : IsKey key) (hm : m.column = 0) (n : Nat) :
    run (n + 2) (topLevel opened true m tokens (key ++ ':' :: ' ' :: rest)) =
      run n (topLevel true false ((key.foldl Mark.next m).next ':') (keyTokens opened tokens key)
        (' ' :: rest)) := by
  obtain ⟨c, s, hc⟩ : ∃ c s, key = c :: s := by
    cases key with
    | nil => exact absurd hkey.letter (by decide)
    | cons c s => exact ⟨c, s, rfl⟩
  have hmargin : AtMargin (key ++ ':' :: ' ' :: rest) := by
    have hletter := hkey.letter
    rw [hc] at hletter ⊢
    exact hletter
  rw [run_token (skip_margin hmargin) (dropStale_of_places rfl) (by rw [hc]; rfl)
    (token_key hkey hm hc),
    run_token skip_atColon (dropStale_atColon hkey) rfl (token_colon hkey hm)]

/-! ### Lines -/

/-- A key and the value written behind it, which reads as `text`. -/
structure Line where
  key : List Char
  value : List Char
  style : Style
  text : List Char

namespace Line

def written (l : Line) : List Char := l.key ++ ':' :: ' ' :: l.value

def read (l : Line) : List Token :=
  [.key, .scalar .plain l.key, .value, .scalar l.style l.text]

structure Good (l : Line) : Prop where
  key : IsKey l.key
  printable : Printable l.value
  reads : ReadsAs l.value l.style l.text

end Line

variable {l : Line} {lines : List Line}

theorem atMargin_lines (h : ∀ l ∈ lines, l.Good) : AtMargin (lines.flatMap Line.written) := by
  cases lines with
  | nil => rfl
  | cons l lines =>
    have hletter := (h l List.mem_cons_self).key.letter
    rw [List.flatMap_cons, Line.written]
    cases hkey : l.key with
    | nil => exact absurd hletter (by rw [hkey]; decide)
    | cons c s => rwa [hkey] at hletter

theorem run_line (opened : Bool) (tokens : List Token) (h : l.Good) (hm : m.column = 0)
    (hrest : AtMargin rest) (n : Nat) :
    ∃ m', m'.column = 0 ∧ run (n + 3) (topLevel opened true m tokens (l.written ++ rest)) =
      run n (topLevel true true m'
        (l.read.reverse ++ (if opened then tokens else .blockMapStart :: tokens)) rest) := by
  obtain ⟨m', hm', hread⟩ := h.reads n ((l.key.foldl Mark.next m).next ':')
    (keyTokens opened tokens l.key) rest hrest
  refine ⟨m', hm', ?_⟩
  rw [Line.written, List.append_assoc, List.cons_append, List.cons_append]
  exact (run_key h.key hm (n + 1)).trans hread

theorem run_lines (h : ∀ l ∈ lines, l.Good) (hm : m.column = 0) (n : Nat) :
    ∃ m', run (n + 3 * lines.length) (topLevel true true m tokens (lines.flatMap Line.written)) =
      run n (topLevel true true m' ((lines.flatMap Line.read).reverse ++ tokens) []) := by
  induction lines generalizing m tokens with
  | nil => exact ⟨m, rfl⟩
  | cons l lines ih =>
    rw [List.forall_mem_cons] at h
    obtain ⟨m₁, hm₁, hline⟩ := run_line true tokens h.1 hm (atMargin_lines h.2)
      (n + 3 * lines.length)
    obtain ⟨m', hrest⟩ := ih h.2 hm₁
    refine ⟨m', ?_⟩
    rw [List.flatMap_cons, List.length_cons, Nat.mul_succ, ← Nat.add_assoc, hline, if_pos rfl,
      hrest]
    simp

theorem run_end (n : Nat) :
    run (n + 1) (topLevel true true m tokens []) = some (tokens.reverse ++ [.blockEnd]) := by
  have hmargin : AtMargin [] := rfl
  rw [run, skip_margin hmargin, dropStale_of_places rfl]
  simp [topLevel, finish, unrollTo, dropPlace, inFlow]

theorem length_lines (h : ∀ l ∈ lines, l.Good) :
    3 * lines.length ≤ (lines.flatMap Line.written).length := by
  induction lines with
  | nil => simp
  | cons l lines ih =>
    rw [List.forall_mem_cons] at h
    have hkey : l.key ≠ [] := by
      intro hkey
      exact absurd h.1.key.letter (by rw [hkey]; decide)
    have hpos := List.length_pos_iff.mpr hkey
    have := ih h.2
    simp only [List.flatMap_cons, Line.written, List.length_append, List.length_cons]
    omega

theorem printable_lines (h : ∀ l ∈ lines, l.Good) : Printable (lines.flatMap Line.written) := by
  intro c hc
  obtain ⟨l, hl, hc⟩ := List.mem_flatMap.mp hc
  have hkey : Printable l.key := fun c hc => isPrintable_of_isWordChar ((h l hl).key.word c hc)
  exact hkey.append (.cons (by decide) (.cons (by decide) (h l hl).printable)) c hc

theorem tokens?_lines (hne : lines ≠ []) (h : ∀ l ∈ lines, l.Good) :
    tokens? (lines.flatMap Line.written) =
      some (.blockMapStart :: (lines.flatMap Line.read ++ [.blockEnd])) := by
  have hprint := printable_lines h
  have hallowed : (lines.flatMap Line.written).all isAllowed = true :=
    List.all_eq_true.mpr fun c hc => isAllowed_of_isPrintable (hprint c hc)
  have hlength := length_lines h
  rw [tokens?, if_pos hallowed, hprint.normalizeBreaks]
  cases lines with
  | nil => exact absurd rfl hne
  | cons l lines =>
    rw [List.length_cons] at hlength
    rw [List.forall_mem_cons] at h
    rw [List.flatMap_cons] at hlength ⊢
    -- a line takes three steps, and has at least as many characters
    obtain ⟨k, hk⟩ : ∃ k, (l.written ++ lines.flatMap Line.written).length + 1 =
        k + 1 + 3 * lines.length + 3 :=
      ⟨(l.written ++ lines.flatMap Line.written).length - (3 * lines.length + 3), by omega⟩
    obtain ⟨m₁, hm₁, hline⟩ := run_line false [] h.1 (m := {}) rfl
      (atMargin_lines h.2) (k + 1 + 3 * lines.length)
    obtain ⟨m', hlines⟩ := run_lines h.2 hm₁ (k + 1)
    dsimp only
    rw [hk]
    exact hline.trans (hlines.trans ((run_end k).trans (by simp)))

/-! ### The tree -/

def Line.entry {ρ : Type} (l : Line) : Node ρ × Node ρ :=
  (.scalar { style := .plain, text := l.key }, .scalar { style := l.style, text := l.text })

variable {handles : Handles} {style : Style} {text : List Char} {ts : List Token}

theorem parseNode_scalar (inBlock indentless : Bool) (n : Nat) :
    parseNode handles inBlock indentless (n + 1) (.scalar style text :: ts) =
      some (.scalar { style, text }, ts) := by
  simp [parseNode, properties, anchor]

theorem parseBlockPart_scalar (n : Nat) :
    parseBlockPart handles (n + 2) (.scalar style text :: ts) =
      some (.scalar { style, text }, ts) := by
  rw [parseBlockPart]
  · exact parseNode_scalar true true n
  all_goals simp

theorem parseBlockMap_lines (n : Nat) :
    parseBlockMap handles (lines.length + n + 3) (lines.flatMap Line.read ++ .blockEnd :: ts) =
      some (lines.map Line.entry, ts) := by
  induction lines with
  | nil => simp [parseBlockMap]
  | cons l lines ih =>
    have hfuel : (l :: lines).length + n + 3 = lines.length + n + 3 + 1 := by
      rw [List.length_cons]
      omega
    rw [hfuel, List.flatMap_cons, Line.read]
    simp only [List.cons_append, List.nil_append, parseBlockMap]
    rw [show lines.length + n + 3 = lines.length + n + 1 + 2 from rfl, parseBlockPart_scalar]
    simp only [Option.bind_eq_bind, Option.bind_some]
    rw [parseBlockPart_scalar]
    simp [ih, Line.entry]

theorem documentOf?_lines :
    documentOf? (.blockMapStart :: (lines.flatMap Line.read ++ [.blockEnd])) =
      some (.map (lines.map Line.entry)) := by
  have hcount : lines.length ≤ (lines.flatMap Line.read).length := by
    induction lines with
    | nil => simp
    | cons l lines ih =>
      simp only [List.flatMap_cons, List.length_cons, List.length_append, Line.read]
      omega
  obtain ⟨n, hn⟩ : ∃ n, enough (.blockMapStart :: (lines.flatMap Line.read ++ [.blockEnd])) =
      lines.length + n + 3 + 1 := by
    refine ⟨enough (.blockMapStart :: (lines.flatMap Line.read ++ [.blockEnd])) -
      (lines.length + 4), ?_⟩
    simp only [enough, List.length_cons, List.length_append, List.length_nil]
    omega
  have hnode : parseNode Handles.standard true false (lines.length + n + 3 + 1)
      (.blockMapStart :: (lines.flatMap Line.read ++ [.blockEnd])) =
        some (.map (lines.map Line.entry), []) := by
    simp [parseNode, properties, anchor, parseBlockMap_lines]
  simp [documentOf?, directives, hn, hnode]

theorem number_lines (a : Anchors) :
    number a (.map (lines.map Line.entry)) = some (.map (lines.map Line.entry), a) := by
  have hentries : numberEntries a (lines.map Line.entry) = some (lines.map Line.entry, a) := by
    induction lines with
    | nil => rfl
    | cons l lines ih => simp [numberEntries, number, Line.entry, ih]
  simp [number, hentries]

theorem read?_lines (hne : lines ≠ []) (h : ∀ l ∈ lines, l.Good) :
    read? (lines.flatMap Line.written) = some ⟨.map (lines.map Line.entry), []⟩ := by
  simp [read?, tokens?_lines hne h, documentOf?_lines, number_lines]

end Vigil.Yaml
