import Mathlib
import Vigil.Proofs.Time.Rfc3339
import Vigil.Proofs.Yaml.Mapping
import Vigil.Proofs.Yaml.Unquoted
import Vigil.Record.Reader
import Vigil.Record.Writer

/-! A record that was written is read as it was, but for a start time in a year of no four digits,
which the reader leaves out. -/
namespace Vigil

open Yaml (Unquoted)

/-! ### The texts of times -/

namespace Rfc3339

theorem isDigit_digit (n : Nat) : (digit n).isDigit = true := by
  simp [digit, Nat.isDigit_digitChar, Nat.mod_lt]

theorem bare_twoDigits (n : Nat) : Bare (twoDigits n) :=
  .cons (isBare_of_isDigit (isDigit_digit _)) (.cons (isBare_of_isDigit (isDigit_digit _)) bare_nil)

theorem bare_paddedDecimal (width n : Nat) : Bare (Text.paddedDecimal width n) :=
  fun _ hc => isBare_of_isDigit (Text.isDigit_of_mem_paddedDecimal hc)

theorem bare_fractionText (n : Nat) : Bare (fractionText n) := by
  unfold fractionText
  split_ifs
  · exact bare_nil
  all_goals exact .cons (by decide) (bare_paddedDecimal _ _)

theorem bare_yearText (y : Int) : Bare (yearText y) := by
  unfold yearText
  split_ifs
  · exact bare_paddedDecimal _ _
  all_goals exact .cons (by decide) (bare_paddedDecimal _ _)

theorem head_paddedDecimal (width n : Nat) :
    ∃ c r, Text.paddedDecimal width n = c :: r ∧ c.isDigit = true := by
  have hdigit (c : Char) (hc : c ∈ Text.paddedDecimal width n) : c.isDigit = true :=
    Text.isDigit_of_mem_paddedDecimal hc
  cases htext : Text.paddedDecimal width n with
  | nil => exact absurd (List.append_eq_nil_iff.mp htext).2 (Text.decimal_ne_nil n)
  | cons c r => exact ⟨c, r, rfl, hdigit c (by rw [htext]; exact List.mem_cons_self)⟩

/-- What a time begins with. -/
theorem head_writeZulu (t : Instant) :
    ∃ c r, writeZulu t = c :: r ∧ (c.isDigit = true ∨ c = '-' ∨ c = '+') := by
  obtain ⟨c, r, hyear, hc⟩ : ∃ c r, yearText t.date.year = c :: r ∧
      (c.isDigit = true ∨ c = '-' ∨ c = '+') := by
    unfold yearText
    split_ifs
    · obtain ⟨c, r, htext, hc⟩ := head_paddedDecimal 4 t.date.year.toNat
      exact ⟨c, r, htext, .inl hc⟩
    · exact ⟨_, _, rfl, by simp⟩
    · exact ⟨_, _, rfl, by simp⟩
  exact ⟨c, _, by rw [writeZulu, write, hyear]; rfl, hc⟩

theorem write_append (zone : List Char) (t : Instant) : write zone t = write [] t ++ zone := by
  simp [write]

theorem bare_write (t : Instant) : Bare (write [] t) := by
  have hdash : isBare '-' = true := by decide
  have hcolon : isBare ':' = true := by decide
  have hmark : isBare 'T' = true := by decide
  rw [write, List.append_nil]
  exact ((((((bare_yearText _).append (.cons hdash (bare_twoDigits _))).append
    (.cons hdash (bare_twoDigits _))).append (.cons hmark (bare_twoDigits _))).append
    (.cons hcolon (bare_twoDigits _))).append (.cons hcolon (bare_twoDigits _))).append
    (bare_fractionText _)

theorem unquoted_writeZulu (t : Instant) : Unquoted (writeZulu t) := by
  refine ⟨?_, ?_, ?_⟩
  · rw [writeZulu, write_append]
    exact (bare_write t).append (.cons (by decide) bare_nil)
  · obtain ⟨c, r, htext, hc⟩ := head_writeZulu t
    have hcolon : c ≠ ':' := by
      rintro rfl
      exact absurd hc (by decide)
    rw [htext]
    simpa using hcolon
  · rw [writeZulu, write_append, List.getLast?_concat]
    rfl

end Rfc3339

/-! ### The lines of a record -/

namespace Record

open Yaml (Line Document Node Scalar)

def nullText : List Char := ['n', 'u', 'l', 'l']

theorem unquoted_nullText : Unquoted nullText where
  bare := .cons (by decide) (.cons (by decide) (.cons (by decide) (.cons (by decide) bare_nil)))
  head := rfl
  last := rfl

def versionText (version : Option UInt32) : List Char :=
  (version.map fun v => Text.decimal v.toNat).getD nullText

def timeText (startedAt : Option Instant) : List Char :=
  (startedAt.map Rfc3339.writeZulu).getD nullText

theorem unquoted_versionText (version : Option UInt32) : Unquoted (versionText version) := by
  cases version with
  | none => exact unquoted_nullText
  | some v => exact unquoted_decimal v.toNat

theorem unquoted_timeText (startedAt : Option Instant) : Unquoted (timeText startedAt) := by
  cases startedAt with
  | none => exact unquoted_nullText
  | some t => exact Rfc3339.unquoted_writeZulu t

def plainLine (key : String) (text : List Char) : Line :=
  ⟨key.toList, text ++ ['\n'], .plain, text⟩

def hostLine (host : List Char) : Line :=
  ⟨"host".toList, Yaml.valueText host, Yaml.styleOf host, host⟩

def lines (r : Record) : List Line :=
  [plainLine "version" (versionText r.version), hostLine r.host.toList,
    plainLine "port" (Text.decimal r.port.toNat), plainLine "pid" (Text.decimal r.pid.toNat),
    plainLine "started_at" (timeText r.startedAt)]

theorem toYaml_eq (r : Record) : r.toYaml = String.ofList (r.lines.flatMap Line.written) := by
  unfold toYaml lines
  cases r.version <;> cases r.startedAt <;>
    simp [lineOf, plainLine, hostLine, Line.written, versionText, timeText, nullLine, nullText]

theorem plainLine_good {key : String} {text : List Char} (hkey : Yaml.IsKey key.toList)
    (h : Unquoted text) : (plainLine key text).Good where
  key := hkey
  printable := h.printable.append (.cons (by decide) Yaml.printable_nil)
  reads := Yaml.readsAs_words h.ne_nil h.words

theorem hostLine_good (host : List Char) : (hostLine host).Good where
  key := Yaml.isKey_of_all rfl rfl (show "host".toList.length ≤ 256 by decide)
  printable := Yaml.printable_valueText host
  reads := Yaml.readsAs_valueText host

theorem lines_good (r : Record) : ∀ l ∈ r.lines, l.Good := by
  simp only [lines, List.forall_mem_cons]
  refine ⟨plainLine_good ?_ (unquoted_versionText _), hostLine_good _,
    plainLine_good ?_ (unquoted_decimal _), plainLine_good ?_ (unquoted_decimal _),
    plainLine_good ?_ (unquoted_timeText _), by simp⟩
  all_goals exact Yaml.isKey_of_all rfl rfl (by decide)

/-! ### The fields that are read -/

theorem isNullText_of_head {s r : List Char} {c : Char} (h : s = c :: r)
    (hc : c.isDigit = true ∨ c = '-' ∨ c = '+') : Yaml.isNullText s = false := by
  have hne {d : Char} (hd : ¬(d.isDigit = true ∨ d = '-' ∨ d = '+')) : (d == c) = false := by
    refine beq_false_of_ne ?_
    rintro rfl
    exact hd hc
  rw [h, Yaml.isNullText]
  simp [hne]

theorem present?_plain {text : List Char} (hne : text ≠ []) :
    present? { style := .plain, text } = some !Yaml.isNullText text := by
  simp [present?, hne]

theorem unsigned?_decimal {limit n : Nat} (h : n ≤ limit) :
    Yaml.unsigned? limit (Text.decimal n) = some n := by
  have hread := Text.digits?_decimal n
  obtain ⟨c, r, hdec, hc, hzero⟩ := Text.decimal_cases n
  rw [hdec] at hread ⊢
  have hne {d : Char} (hd : d.isDigit = false) : c ≠ d := by
    rintro rfl
    exact Bool.noConfusion (hc.symm.trans hd)
  have hplus : Yaml.afterPlus (c :: r) = c :: r :=
    Yaml.afterPlus.eq_2 _ fun _ heq => hne (by decide) (List.cons.inj heq).1
  have hsigned : Yaml.startsSigned (c :: r) = false := by
    simp [Yaml.startsSigned, Yaml.isSign, hne (d := '+') (by decide), hne (d := '-') (by decide)]
  have hbased : Yaml.based? (c :: r) = none := by
    unfold Yaml.based?
    split <;> simp_all
  have hzeroLed : Yaml.isZeroLed (c :: r) = false := by
    rw [Yaml.isZeroLed, hsigned]
    by_cases hc0 : c = '0'
    · rw [hc0, hzero hc0]
      rfl
    · simp [hc0]
  simp [Yaml.unsigned?, hplus, hsigned, hbased, hzeroLed, hread, h]

theorem number?_decimal {limit n : Nat} (h : n ≤ limit) :
    number? limit { style := .plain, text := Text.decimal n } = some n := by
  simp [number?, unsigned?_decimal h]

namespace Draft

variable (d : Document) {draft : Draft}

theorem setField_version (h : draft.version = none) (version : Option UInt32) :
    draft.setField d "version".toList (.scalar { style := .plain, text := versionText version }) =
      some { draft with version := some version } := by
  cases version with
  | none =>
    have hpresent := present?_plain (unquoted_versionText none).ne_nil
    have hnull : Yaml.isNullText (versionText none) = true := rfl
    simp [setField, Document.scalar?, once, h, hpresent, hnull]
  | some v =>
    have hpresent := present?_plain (unquoted_versionText (some v)).ne_nil
    have hnull : Yaml.isNullText (versionText (some v)) = false := by
      obtain ⟨c, r, hdec, hc, -⟩ := Text.decimal_cases v.toNat
      exact isNullText_of_head hdec (.inl hc)
    have hlimit : v.toNat ≤ u32Max := Nat.le_of_lt_succ v.toNat_lt
    have hnumber : number? u32Max { style := .plain, text := versionText (some v) } =
      some v.toNat := number?_decimal hlimit
    simp [setField, Document.scalar?, once, h, hpresent, hnull, hnumber]

theorem setField_host (h : draft.host = none) (s : Scalar) :
    draft.setField d "host".toList (.scalar s) =
      some { draft with host := some (String.ofList s.text) } := by
  simp [setField, Document.scalar?, once, h]

theorem setField_port (h : draft.port = none) (port : UInt16) :
    draft.setField d "port".toList
      (.scalar { style := .plain, text := Text.decimal port.toNat }) =
        some { draft with port := some port } := by
  have hlimit : port.toNat ≤ u16Max := Nat.le_of_lt_succ port.toNat_lt
  simp [setField, Document.scalar?, once, h, number?_decimal hlimit]

theorem setField_pid (h : draft.pid = none) (pid : UInt32) :
    draft.setField d "pid".toList
      (.scalar { style := .plain, text := Text.decimal pid.toNat }) =
        some { draft with pid := some pid } := by
  have hlimit : pid.toNat ≤ u32Max := Nat.le_of_lt_succ pid.toNat_lt
  simp [setField, Document.scalar?, once, h, number?_decimal hlimit]

theorem setField_startedAt (h : draft.startedAt = none) (startedAt : Option Instant) :
    draft.setField d "started_at".toList (.scalar { style := .plain, text := timeText startedAt }) =
      some { draft with startedAt := some (startedAt.filter Rfc3339.Written) } := by
  cases startedAt with
  | none =>
    have hpresent := present?_plain (unquoted_timeText none).ne_nil
    have hnull : Yaml.isNullText (timeText none) = true := rfl
    simp [setField, Document.scalar?, once, h, hpresent, hnull]
  | some t =>
    have htext := unquoted_timeText (some t)
    have hpresent := present?_plain htext.ne_nil
    have hnull : Yaml.isNullText (timeText (some t)) = false := by
      obtain ⟨c, r, htext, hc⟩ := Rfc3339.head_writeZulu t
      exact isNullText_of_head htext hc
    have hread : Rfc3339.read? (timeText (some t)) = _ := Rfc3339.read?_writeZulu_eq t
    simp [setField, Document.scalar?, once, h, hpresent, hnull, htext.bare.trim, hread,
      Option.filter]

theorem fill_line {draft' : Draft} {ls : List Line} (l : Line)
    (h : draft.setField d l.key (.scalar { style := l.style, text := l.text }) = some draft') :
    fill d draft ((l :: ls).map Line.entry) = fill d draft' (ls.map Line.entry) := by
  have hkey : d.scalar? (.scalar { style := .plain, text := l.key }) =
    some { style := .plain, text := l.key } := rfl
  rw [List.map_cons, Line.entry, fill, hkey]
  simp only [Option.bind_eq_bind, Option.bind_some, h]

theorem fill_lines (r : Record) :
    fill d {} (r.lines.map Line.entry) =
      some ⟨some r.version, some r.host, some r.port, some r.pid,
        some (r.startedAt.filter fun t => Rfc3339.Written t)⟩ := by
  rw [lines, fill_line d (plainLine "version" (versionText r.version)) (setField_version d rfl _),
    fill_line d (hostLine r.host.toList) (setField_host d rfl _),
    fill_line d (plainLine "port" (Text.decimal r.port.toNat)) (setField_port d rfl _),
    fill_line d (plainLine "pid" (Text.decimal r.pid.toNat)) (setField_pid d rfl _),
    fill_line d (plainLine "started_at" (timeText r.startedAt)) (setField_startedAt d rfl _)]
  simp [fill, hostLine]

end Draft

/-! ### Whole records -/

/-- What is left of a record that is written and read again. -/
def kept (r : Record) : Record :=
  { r with startedAt := r.startedAt.filter fun t => Rfc3339.Written t }

theorem kept_eq_self_iff (r : Record) : r.kept = r ↔ ∀ t ∈ r.startedAt, Rfc3339.Written t := by
  cases r with
  | mk version host port pid startedAt =>
    cases startedAt <;> simp [kept, Option.filter]

theorem parse?_toYaml_kept {r : Record} (h : r.Usable) : parse? r.toYaml = some r.kept := by
  have hread : Yaml.read? (r.lines.flatMap Line.written) = _ :=
    Yaml.read?_lines (List.cons_ne_nil _ _) r.lines_good
  have hrecord : ofDocument? ⟨.map (r.lines.map Line.entry), []⟩ = some r.kept := by
    have hfill := Draft.fill_lines ⟨.map (r.lines.map Line.entry), []⟩ r
    simp only [ofDocument?, hfill]
    rfl
  have husable : r.kept.Usable := h
  rw [parse?, toYaml_eq, String.toList_ofList, hread]
  simp only [Option.bind_eq_bind, Option.bind_some, hrecord, if_pos husable]

theorem usable_of_parse? {text : String} {r : Record} (h : parse? text = some r) : r.Usable := by
  simp only [parse?, Option.bind_eq_bind, Option.bind_eq_some_iff] at h
  obtain ⟨_, -, r', -, h⟩ := h
  split_ifs at h with husable
  exact Option.some.inj h ▸ husable

/-- A usable record, of any host and with any start time in a year of four digits, is read from
its own text as it was. -/
theorem written_record_reads_back (r : Record) (h : r.Usable)
    (hyear : ∀ t ∈ r.startedAt, 0 ≤ t.date.year ∧ t.date.year ≤ 9999) :
    parse? r.toYaml = some r := by
  rw [parse?_toYaml_kept h, (kept_eq_self_iff r).mpr hyear]

/-- A host of several lines, and a start in the leap second at the end of 2016. -/
def unusual : Record where
  host := "- it's\n  #1: \u2028\n\n"
  port := 65535
  pid := 1
  startedAt := some ⟨1483228799, 1500000000, by decide, by decide⟩

theorem unusual_reads_back : unusual.Usable ∧
    (∀ t ∈ unusual.startedAt, 0 ≤ t.date.year ∧ t.date.year ≤ 9999) ∧
      parse? unusual.toYaml = some unusual := by
  have hyear : ∀ t ∈ unusual.startedAt, 0 ≤ t.date.year ∧ t.date.year ≤ 9999 := by
    rintro t ⟨⟩
    decide
  exact ⟨by decide, hyear, written_record_reads_back unusual (by decide) hyear⟩

/-- Of a record that was read, writing and reading keeps everything but a start time whose year in
UTC has no four digits: such a start time is gone, and the record is another one. -/
theorem reread_record_iff {text : String} {r : Record} (h : parse? text = some r) :
    parse? r.toYaml = some { r with
      startedAt := r.startedAt.filter (fun t => 0 ≤ t.date.year ∧ t.date.year ≤ 9999) } ∧
    (parse? r.toYaml = some r ↔ ∀ t ∈ r.startedAt, 0 ≤ t.date.year ∧ t.date.year ≤ 9999) := by
  have hread := parse?_toYaml_kept (usable_of_parse? h)
  refine ⟨hread, ?_⟩
  rw [hread, Option.some_inj]
  exact kept_eq_self_iff r

/-- A start in the afternoon of India, which is the morning in UTC. -/
def eastern : String := "port: 7000\npid: 42\nstarted_at: 2024-06-01T12:30:00.5+05:30\n"

theorem eastern_reread : ∃ r, parse? eastern = some r ∧
    (∀ t ∈ r.startedAt, 0 ≤ t.date.year ∧ t.date.year ≤ 9999) ∧ parse? r.toYaml = some r := by
  let t : Instant := ⟨1717225200, 500000000, by decide, by decide⟩
  have h : parse? eastern = some { port := 7000, pid := 42, startedAt := some t } := by
    decide +kernel
  have hyear : ∀ t' ∈ some t, 0 ≤ t'.date.year ∧ t'.date.year ≤ 9999 := by
    rintro t' ⟨⟩
    decide
  exact ⟨_, h, hyear, (reread_record_iff h).2.mpr hyear⟩

/-- The first minute of the year 0 one minute east of UTC, where it is the last of the year
before. -/
def beforeYearZero : String := "port: 7000\npid: 42\nstarted_at: 0000-01-01T00:00:00+00:01\n"

/-- The reader takes this start time, and not the text that is written for it. -/
theorem beforeYearZero_lost : ∃ r, parse? beforeYearZero = some r ∧
    parse? r.toYaml = some { r with startedAt := none } ∧ parse? r.toYaml ≠ some r := by
  have h : parse? beforeYearZero = some
      { port := 7000, pid := 42, startedAt := some ⟨-62167219260, 0, by decide, by decide⟩ } := by
    decide +kernel
  refine ⟨_, h, ?_⟩
  rw [parse?_toYaml_kept (usable_of_parse? h)]
  exact ⟨rfl, by decide⟩

end Record

end Vigil
