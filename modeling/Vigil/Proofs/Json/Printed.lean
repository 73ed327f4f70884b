import Mathlib
import Vigil.Json.Reader
import Vigil.Json.Writer
import Vigil.Proofs.Text.Digits

/-! A value that was printed is read as it was: a lemma for each form a text can take, with the
blanks that may stand in it, and from them the value of a text with a line for each item. -/
namespace Vigil.Json

/-! ### Blanks -/

def Blanks (b : List Char) : Prop := ∀ c ∈ b, isSpace c = true

theorem skipSpace_append {b : List Char} (h : Blanks b) (s : List Char) :
    skipSpace (b ++ s) = skipSpace s := by
  rw [skipSpace, List.dropWhile_append_of_pos h]
  rfl

theorem skipSpace_cons {c : Char} (h : isSpace c = false) (s : List Char) :
    skipSpace (c :: s) = c :: s := by
  simp [skipSpace, h]

theorem blanks_nil : Blanks [] := by simp [Blanks]

theorem blanks_newLine (depth : Nat) : Blanks (newLine depth) := by
  intro c hc
  obtain rfl | hc := List.mem_cons.mp hc
  · rfl
  · rw [List.eq_of_mem_replicate hc]
    rfl

/-! ### Strings -/

/-- What a reader takes an escaped character for. -/
def pieceOf (c : Char) : Piece :=
  if c.toNat < 0x20 ∧ ¬(8 ≤ c.toNat ∧ c.toNat ≤ 10 ∨ c.toNat = 12 ∨ c.toNat = 13) then
    .unit c.toNat
  else .char c

theorem joinPieces_unit {n : Nat} (h : n < 0xD800) (ps : List Piece) :
    joinPieces (.unit n :: ps) = (joinPieces ps).map (Char.ofNat n :: ·) := by
  have hhigh : isHigh n = false := by simp [isHigh]; omega
  have hlow : isLow n = false := by simp [isLow]; omega
  cases ps with
  | nil => simp [joinPieces, hhigh, hlow]
  | cons p ps => cases p <;> simp [joinPieces, hhigh, hlow]

theorem joinPieces_map (s : List Char) : joinPieces (s.map pieceOf) = some s := by
  induction s with
  | nil => rfl
  | cons c s ih =>
    rw [List.map_cons, pieceOf]
    split
    · next h => rw [joinPieces_unit (by omega), ih, Option.map_some, Char.ofNat_toNat]
    · rw [joinPieces, ih, Option.map_some]

theorem hexByte_cases {n : Nat} (h : n < 0x20) :
    digit? 16 (Nat.digitChar (n / 16 % 16)) = some (n / 16) ∧
    digit? 16 (Nat.digitChar (n % 16)) = some (n % 16) := by
  refine ⟨?_, digit?_digitChar (by decide) (by omega)⟩
  rw [Nat.mod_eq_of_lt (by omega)]
  exact digit?_digitChar (by decide) (by omega)

/-- Each written character is one piece. -/
theorem piecesFrom_escapeChar (done : List Piece) (left : Nat) (c : Char) (s : List Char) :
    piecesFrom done (left + 1) (escapeChar c ++ s) = piecesFrom (pieceOf c :: done) left s := by
  have hback {n : Nat} (h : c.toNat = n) : c = Char.ofNat n := by rw [← h, Char.ofNat_toNat]
  simp only [escapeChar, Bool.or_eq_true, beq_iff_eq]
  split_ifs with hmark h8 h9 h10 h12 h13 hcontrol
  · obtain h | h := hmark <;> rw [hback h] <;> rfl
  · rw [hback h8]
    rfl
  · rw [hback h9]
    rfl
  · rw [hback h10]
    rfl
  · rw [hback h12]
    rfl
  · rw [hback h13]
    rfl
  · have hpiece : pieceOf c = .unit c.toNat := if_pos (by omega)
    obtain ⟨hleft, hright⟩ := hexByte_cases hcontrol
    have hzero : digit? 16 '0' = some 0 := rfl
    have hread : hex4? ('0' :: '0' :: (Text.hexByte c.toNat ++ s)) = some (c.toNat, s) := by
      simp [hex4?, Text.hexByte, hzero, hleft, hright]
      omega
    simp [piecesFrom, hread, hpiece]
  · have hpiece : pieceOf c = .char c := if_neg (by omega)
    have hquote : c ≠ '\x22' := fun h => hmark (.inl (h ▸ rfl))
    have hslash : c ≠ '\\' := fun h => hmark (.inr (h ▸ rfl))
    simp [piecesFrom, hquote, hslash, hcontrol, hpiece]

theorem piecesFrom_quoted (s rest : List Char) : ∀ (done : List Piece) (left : Nat),
    s.length < left → piecesFrom done left (s.flatMap escapeChar ++ '\x22' :: rest) =
      some (done.reverse ++ s.map pieceOf, rest) := by
  induction s with
  | nil =>
    intro done left h
    cases left with
    | zero => cases h
    | succ left => simp [piecesFrom]
  | cons c s ih =>
    intro done left h
    cases left with
    | zero => cases h
    | succ left =>
      rw [List.flatMap_cons, List.append_assoc, piecesFrom_escapeChar, ih _ _ (by simpa using h)]
      simp

theorem length_le_escaped (s : List Char) : s.length ≤ (s.flatMap escapeChar).length := by
  induction s with
  | nil => rfl
  | cons c s ih =>
    have hpos : 0 < (escapeChar c).length := by
      simp only [escapeChar]
      split_ifs <;> simp
    simp only [List.flatMap_cons, List.length_append, List.length_cons]
    omega

theorem string?_quote (s : String) (rest : List Char) :
    ∃ t, quote s = '\x22' :: t ∧ string? (t ++ rest) = some (some s, rest) := by
  refine ⟨_, rfl, ?_⟩
  have hlength := length_le_escaped s.toList
  rw [string?, List.append_assoc, List.cons_append, List.nil_append, piecesFrom_quoted]
  · simp [joinPieces_map]
  · simp only [List.length_append]
    omega

/-! ### Numbers -/

/-- What ends a number. -/
def Stops (rest : List Char) : Prop :=
  ∀ c ∈ rest.head?, c.isDigit = false ∧ c ≠ '.' ∧ c ≠ 'e' ∧ c ≠ 'E'

theorem stops_nil : Stops [] := by simp [Stops]

theorem stops_cons {c : Char} (h : c ∈ ['\n', ' ', ',', ']', '}']) (rest : List Char) :
    Stops (c :: rest) := by
  intro c' hc
  cases hc
  fin_cases h <;> decide

theorem takeWhile_decimal {rest : List Char} (h : Stops rest) (n : Nat) :
    (Text.decimal n ++ rest).takeWhile Char.isDigit = Text.decimal n := by
  rw [List.takeWhile_append_of_pos fun c hc => Text.isDigit_of_mem_decimal hc]
  cases rest with
  | nil => simp
  | cons c r => simp [(h c rfl).1]

theorem number?_decimalInt {rest : List Char} (h : Stops rest) (n : Int) :
    number? (Text.decimalInt n ++ rest) = some (.int n, rest) := by
  obtain ⟨c, r, hdec, hc, hzero⟩ := Text.decimal_cases n.natAbs
  have hwhole := takeWhile_decimal h n.natAbs
  have hread := Text.digits?_decimal n.natAbs
  have hminus : c ≠ '-' := by rintro rfl; cases hc
  have hled : ((Text.decimal n.natAbs).isEmpty || (Text.decimal n.natAbs).head? == some '0' &&
      (Text.decimal n.natAbs).length != 1) = false := by
    rw [hdec]
    by_cases h0 : c = '0' <;> simp [h0, hzero]
  by_cases hneg : n < 0
  · have hsplit : Text.decimalInt n ++ rest = '-' :: (Text.decimal n.natAbs ++ rest) := by
      simp [Text.decimalInt, hneg]
    have habs : |n| = -n := abs_of_neg hneg
    rw [hsplit]
    unfold number?
    simp only [hwhole, List.drop_left, hread, hled]
    cases rest with
    | nil => simp [habs, hneg.ne]
    | cons d rest =>
      obtain ⟨-, hpoint, he, hE⟩ := h d rfl
      simp [habs, hneg.ne, hpoint, he, hE]
  · have hsplit : Text.decimalInt n = Text.decimal n.natAbs := by
      simp [Text.decimalInt, hneg]
    have habs : |n| = n := abs_of_nonneg (by omega)
    rw [hsplit]
    unfold number?
    split
    next negative body hbody =>
    have hsame : false = negative ∧ Text.decimal n.natAbs ++ rest = body := by
      rw [hdec, List.cons_append] at hbody ⊢
      split at hbody
      · next heq => cases heq; exact absurd rfl hminus
      · simpa using hbody
    obtain ⟨rfl, rfl⟩ := hsame
    simp only [hwhole, List.drop_left, hread, hled]
    cases rest with
    | nil => simp [habs]
    | cons d rest =>
      obtain ⟨-, hpoint, he, hE⟩ := h d rfl
      simp [habs, hpoint, he, hE]

/-! ### Values, items and fields -/

theorem stops_blanks {b : List Char} (hb : Blanks b) {c : Char} (hc : c ∈ [',', ']', '}'])
    (rest : List Char) : Stops (b ++ c :: rest) := by
  cases b with
  | nil => exact stops_cons (by fin_cases hc <;> decide) rest
  | cons d b =>
    have hd := hb d (by simp)
    simp only [isSpace, Bool.or_eq_true, beq_iff_eq] at hd
    intro c' hc'
    cases hc'
    obtain ((rfl | rfl) | rfl) | rfl := hd <;> decide

/-- The reader takes the text for the value, whatever comes next that ends a number. -/
def ReadsAs (t : List Char) (v : Value) : Prop :=
  ∀ left rest, Stops rest → 2 * t.length ≤ left → value? left (t ++ rest) = some (v, rest)

def ItemsReadAs (t : List Char) (xs : List Value) : Prop :=
  ∀ left rest, 2 * t.length ≤ left → items? left (t ++ rest) = some (xs, rest)

def FieldsReadAs (t : List Char) (fs : List (String × Value)) : Prop :=
  ∀ left rest, 2 * t.length ≤ left → fields? left (t ++ rest) = some (some fs, rest)

variable {t s b : List Char} {v : Value} {k : String}

theorem value?_congr {s s' : List Char} (h : skipSpace s = skipSpace s') (left : Nat) :
    value? left s = value? left s' := by
  cases left with
  | zero => rfl
  | succ left => rw [value?, value?, h]

/-- A bracket that closes is no value. -/
theorem value?_of_close {q : List Char} (h : skipSpace s = ']' :: q) (left : Nat) :
    value? left s = none := by
  cases left with
  | zero => rfl
  | succ left => rw [value?, h]; rfl

theorem ReadsAs.blank (h : ReadsAs t v) (hb : Blanks b) : ReadsAs (b ++ t) v := by
  intro left rest hrest hleft
  rw [List.append_assoc, value?_congr (skipSpace_append hb _)]
  exact h left rest hrest (by rw [List.length_append] at hleft; omega)

theorem ReadsAs.last (h : ReadsAs t v) (hb : Blanks b) : ItemsReadAs (t ++ (b ++ [']'])) [v] := by
  intro left rest hleft
  simp only [List.length_append, List.length_singleton] at hleft
  obtain ⟨left, rfl⟩ : ∃ n, left = n + 1 := ⟨left - 1, by omega⟩
  have hvalue := h left _ (stops_blanks hb (c := ']') (by decide) rest) (by omega)
  simp only [List.append_assoc, List.singleton_append]
  rw [items?, hvalue]
  simp [skipSpace_append hb, skipSpace_cons (c := ']') rfl]

theorem ReadsAs.item {xs : List Value} (h : ReadsAs t v) (hs : ItemsReadAs s xs) :
    ItemsReadAs (t ++ ',' :: s) (v :: xs) := by
  intro left rest hleft
  simp only [List.length_append, List.length_cons] at hleft
  obtain ⟨left, rfl⟩ : ∃ n, left = n + 1 := ⟨left - 1, by omega⟩
  have hvalue := h left _ (stops_blanks blanks_nil (c := ',') (by decide) (s ++ rest)) (by omega)
  simp only [List.append_assoc, List.cons_append, List.nil_append] at hvalue ⊢
  rw [items?, hvalue]
  simp [skipSpace_cons (c := ',') rfl, hs left rest (by omega)]

theorem ItemsReadAs.array {xs : List Value} (h : ItemsReadAs t xs) :
    ReadsAs ('[' :: t) (.arr xs) := by
  intro left rest _ hleft
  simp only [List.length_cons] at hleft
  obtain ⟨left, rfl⟩ : ∃ n, left = n + 1 := ⟨left - 1, by omega⟩
  have hitems := h left rest (by omega)
  have hopen (q : List Char) : skipSpace (t ++ rest) ≠ ']' :: q := fun hclose => by
    cases left with
    | zero => cases hitems
    | succ left =>
      rw [items?, value?_of_close hclose] at hitems
      cases hitems
  rw [List.cons_append, value?, skipSpace_cons (c := '[') rfl]
  simp [hitems]

/-- A key behind blanks, its colon, and the value. -/
theorem fields?_head (hb : Blanks b) (h : ReadsAs t v) {left : Nat} {rest : List Char}
    (hrest : Stops rest) (hleft : 2 * t.length ≤ left) :
    fields? (left + 1) (b ++ (quote k ++ ':' :: (t ++ rest))) =
      match skipSpace rest with
      | '}' :: q => some (some [(k, v)], q)
      | ',' :: q => (fields? left q).bind fun (fs, q) => some (fs.map ((k, v) :: ·), q)
      | _ => none := by
  obtain ⟨u, hquote, hstring⟩ := string?_quote k (':' :: (t ++ rest))
  rw [fields?, skipSpace_append hb, hquote, List.cons_append, skipSpace_cons (c := '\x22') rfl]
  simp only [hstring, Option.bind_eq_bind, Option.bind_some, skipSpace_cons (c := ':') rfl,
    h left rest hrest hleft]
  rfl

theorem ReadsAs.lastField {b' : List Char} (h : ReadsAs t v) (hb : Blanks b) (hb' : Blanks b')
    (k : String) : FieldsReadAs (b ++ (quote k ++ ':' :: (t ++ (b' ++ ['}'])))) [(k, v)] := by
  intro left rest hleft
  simp only [List.length_append, List.length_cons] at hleft
  obtain ⟨left, rfl⟩ : ∃ n, left = n + 1 := ⟨left - 1, by omega⟩
  simp only [List.append_assoc, List.cons_append, List.nil_append]
  rw [fields?_head hb h (stops_blanks hb' (c := '}') (by decide) rest) (by omega),
    skipSpace_append hb', skipSpace_cons (c := '}') rfl]
  rfl

theorem ReadsAs.field {fs : List (String × Value)} (h : ReadsAs t v) (hb : Blanks b)
    (hs : FieldsReadAs s fs) (k : String) :
    FieldsReadAs (b ++ (quote k ++ ':' :: (t ++ ',' :: s))) ((k, v) :: fs) := by
  intro left rest hleft
  simp only [List.length_append, List.length_cons] at hleft
  obtain ⟨left, rfl⟩ : ∃ n, left = n + 1 := ⟨left - 1, by omega⟩
  have hstops : Stops (',' :: (s ++ rest)) := stops_blanks blanks_nil (by decide) (s ++ rest)
  simp only [List.append_assoc, List.cons_append]
  rw [fields?_head hb h hstops (by omega)]
  simp [skipSpace_cons (c := ',') rfl, hs left rest (by omega)]

theorem FieldsReadAs.object {fs : List (String × Value)} (h : FieldsReadAs t fs) :
    ReadsAs ('{' :: t) (.obj fs) := by
  intro left rest _ hleft
  simp only [List.length_cons] at hleft
  obtain ⟨left, rfl⟩ : ∃ n, left = n + 1 := ⟨left - 1, by omega⟩
  have hfields := h left rest (by omega)
  have hopen (q : List Char) : skipSpace (t ++ rest) ≠ '}' :: q := fun hclose => by
    cases left with
    | zero => cases hfields
    | succ left =>
      rw [fields?, hclose] at hfields
      cases hfields
  rw [List.cons_append, value?, skipSpace_cons (c := '{') rfl]
  simp [hfields]

/-! ### Values that are printed as they are -/

/-- A value without a text that was kept because it is no value of the program's own. -/
inductive Plain : Value → Prop
  | null : Plain .null
  | bool (b : Bool) : Plain (.bool b)
  | int (n : Int) : Plain (.int n)
  | str (s : String) : Plain (.str s)
  | arr {xs : List Value} (h : ∀ x ∈ xs, Plain x) : Plain (.arr xs)
  | obj {fs : List (String × Value)} (h : ∀ f ∈ fs, Plain f.2) : Plain (.obj fs)

/-- For a text that is not empty the reader has a step at least. -/
theorem readsAs_of_succ (ht : t ≠ [])
    (h : ∀ left rest, value? (left + 1) (t ++ rest) = some (v, rest)) : ReadsAs t v := by
  intro left rest _ hleft
  have hlength := List.length_pos_iff.mpr ht
  obtain ⟨left, rfl⟩ : ∃ n, left = n + 1 := ⟨left - 1, by omega⟩
  exact h left rest

theorem decimalInt_cases (n : Int) :
    ∃ c r, Text.decimalInt n = c :: r ∧ (c = '-' ∨ c.isDigit = true) := by
  obtain ⟨c, r, hdec, hc, -⟩ := Text.decimal_cases n.natAbs
  unfold Text.decimalInt
  split
  · exact ⟨_, _, rfl, .inl rfl⟩
  · exact ⟨c, r, hdec, .inr hc⟩

/-- What begins with a digit or a sign is a number. -/
theorem value?_number {c : Char} (hc : c = '-' ∨ c.isDigit = true) (left : Nat) (r : List Char) :
    value? (left + 1) (c :: r) = number? (c :: r) := by
  have hspace : isSpace c = false := by
    obtain rfl | hc := hc
    · rfl
    · simp only [isSpace, Bool.or_eq_false_iff, beq_eq_false_iff_ne]
      refine ⟨⟨⟨?_, ?_⟩, ?_⟩, ?_⟩ <;> rintro rfl <;> cases hc
  have hne (d : Char) (hd : d ≠ '-' ∧ d.isDigit = false) : c ≠ d := by
    rintro rfl
    obtain rfl | hc := hc
    · exact hd.1 rfl
    · rw [hc] at hd
      cases hd.2
  rw [value?, skipSpace_cons hspace]
  simp [hne 'n' (by decide), hne 't' (by decide), hne 'f' (by decide), hne '\x22' (by decide),
    hne '[' (by decide), hne '{' (by decide)]

theorem readsAs_int (n : Int) : ReadsAs (Text.decimalInt n) (.int n) := by
  intro left rest hrest hleft
  have hread := number?_decimalInt hrest n
  obtain ⟨c, r, hdec, hc⟩ := decimalInt_cases n
  rw [hdec] at hread hleft ⊢
  simp only [List.length_cons] at hleft
  obtain ⟨left, rfl⟩ : ∃ n, left = n + 1 := ⟨left - 1, by omega⟩
  rw [List.cons_append, value?_number hc]
  exact hread

theorem readsAs_quote (s : String) : ReadsAs (quote s) (.str s) := by
  intro left rest _ hleft
  obtain ⟨u, hquote, hstring⟩ := string?_quote s rest
  rw [hquote] at hleft ⊢
  simp only [List.length_cons] at hleft
  obtain ⟨left, rfl⟩ : ∃ n, left = n + 1 := ⟨left - 1, by omega⟩
  rw [List.cons_append, value?, skipSpace_cons (c := '\x22') rfl]
  simp [hstring]

theorem itemsReadAs_pretty {xs : List Value} (h : ∀ x ∈ xs, ∀ depth, ReadsAs (prettyAt depth x) x)
    (hv : ReadsAs t v) (depth : Nat) : ItemsReadAs (t ++ prettyItems depth xs) (v :: xs) := by
  induction xs generalizing t v with
  | nil => exact hv.last (blanks_newLine depth)
  | cons x xs ih =>
    have hx := (h x (by simp) (depth + 1)).blank (blanks_newLine (depth + 1))
    exact hv.item (ih (fun y hy => h y (by simp [hy])) hx)

theorem fieldsReadAs_pretty {fs : List (String × Value)}
    (h : ∀ f ∈ fs, ∀ depth, ReadsAs (prettyAt depth f.2) f.2) (hv : ReadsAs t v) (hb : Blanks b)
    (k : String) (depth : Nat) :
    FieldsReadAs (b ++ (quote k ++ ':' :: (t ++ prettyFields depth fs))) ((k, v) :: fs) := by
  induction fs generalizing b k t v with
  | nil => exact hv.lastField hb (blanks_newLine depth) k
  | cons f fs ih =>
    obtain ⟨k', x⟩ := f
    have hx := (h (k', x) (by simp) (depth + 1)).blank (b := [' ']) (by simp [Blanks, isSpace])
    have hfs := ih (fun f hf => h f (by simp [hf])) hx (blanks_newLine (depth + 1)) k'
    have hprint : prettyFields depth ((k', x) :: fs) = ',' :: (newLine (depth + 1) ++
        (quote k' ++ ':' :: ([' '] ++ prettyAt (depth + 1) x ++ prettyFields depth fs))) := by
      simp [prettyFields]
    rw [hprint]
    exact hv.field hb hfs k

theorem Plain.readsAs (h : Plain v) (depth : Nat) : ReadsAs (prettyAt depth v) v := by
  induction h generalizing depth with
  | null => exact readsAs_of_succ (by simp [prettyAt, scalarText]) fun left rest => rfl
  | bool b =>
    cases b
    · exact readsAs_of_succ (by simp [prettyAt, scalarText]) fun left rest => rfl
    · exact readsAs_of_succ (by simp [prettyAt, scalarText]) fun left rest => rfl
  | int n => exact readsAs_int n
  | str s => exact readsAs_quote s
  | @arr xs _ ih =>
    cases xs with
    | nil => exact readsAs_of_succ (by simp [prettyAt, scalarText]) fun left rest => rfl
    | cons x xs =>
      have hx := (ih x (by simp) (depth + 1)).blank (blanks_newLine (depth + 1))
      exact (itemsReadAs_pretty (fun y hy => ih y (by simp [hy])) hx depth).array
  | @obj fs _ ih =>
    cases fs with
    | nil => exact readsAs_of_succ (by simp [prettyAt, scalarText]) fun left rest => rfl
    | cons f fs =>
      obtain ⟨k, x⟩ := f
      have hx := (ih (k, x) (by simp) (depth + 1)).blank (b := [' ']) (by simp [Blanks, isSpace])
      have hfs := fieldsReadAs_pretty (fun f hf => ih f (List.mem_cons_of_mem _ hf)) hx
        (blanks_newLine (depth + 1)) k depth
      have hprint : prettyAt depth (.obj ((k, x) :: fs)) = '{' :: (newLine (depth + 1) ++
          (quote k ++ ':' :: ([' '] ++ prettyAt (depth + 1) x ++ prettyFields depth fs))) := by
        simp [prettyAt]
      rw [hprint]
      exact hfs.object

theorem ReadsAs.read? (h : ReadsAs t v) : read? t = some v := by
  have hvalue := h (2 * t.length + 2) [] stops_nil (by omega)
  rw [List.append_nil] at hvalue
  rw [Json.read?, hvalue]
  rfl

theorem read?_pretty (h : Plain v) : read? (pretty v) = some v := (h.readsAs 0).read?

end Vigil.Json
