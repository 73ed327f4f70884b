import Mathlib
import Vigil.Proofs.Record.Written

/-! A start time added to the mapping of a record: what becomes of the record depends on the scalar
that is added, and a value that is no scalar hides the record. -/
namespace Vigil

namespace Yaml

/-- What an entry is to a reader of scalars: the scalars that its key and its value are, themselves
or by an alias; none of a sequence or a mapping. -/
abbrev Seen := Option Scalar × Option Scalar

namespace Document

def seen (d : Document) (entry : Node Nat × Node Nat) : Seen :=
  (d.scalar? entry.1, d.scalar? entry.2)

/-- The entries of the mapping that a document is. -/
def outline? (d : Document) : Option (List Seen) :=
  match d.root with
  | .map entries => some (entries.map d.seen)
  | _ => none

end Document

/-- A plain scalar whose tag says null, and whose text does not. -/
def Scalar.Mistagged (s : Scalar) : Prop :=
  s.style = .plain ∧ s.tag = some nullTag ∧ isNullText s.text = false

instance (s : Scalar) : Decidable s.Mistagged := by unfold Scalar.Mistagged; infer_instance

end Yaml

namespace Record

open Yaml (Node Scalar Document Seen)

/-! ### The start that a scalar gives -/

theorem present?_eq_none_iff (s : Scalar) : present? s = none ↔ s.Mistagged := by
  unfold present? Scalar.Mistagged
  cases hstyle : s.style <;> cases htag : s.tag <;> simp
  split_ifs <;> simp_all

def startKey : List Char := "started_at".toList

/-- Whether an entry's key is the one of the start time. -/
def IsStart (e : Seen) : Prop := ∃ key ∈ e.1, key.text = startKey

/-- The instant of a scalar's text. -/
def startOf (s : Scalar) : Option Instant := Rfc3339.read? (Text.trim s.text)

/-- What stands for no value is no instant either. -/
theorem startOf_eq_none {s : Scalar} (h : present? s = some false) : startOf s = none := by
  have htext : s.text = [] ∨ Yaml.isNullText s.text = true := by
    unfold present? at h
    split at h
    · cases h
    · split at h
      · simpa [or_iff_not_imp_left] using h
      · split_ifs at h with htag hnull
        · cases h
        · exact .inr hnull
  unfold startOf
  obtain hempty | hnull := htext
  · rw [hempty]
    rfl
  · simp only [Yaml.isNullText, List.any_cons, List.any_nil, Bool.or_false, Bool.or_eq_true,
      beq_iff_eq] at hnull
    obtain h | h | h | h := hnull <;> rw [← h] <;> decide

namespace Draft

variable {d d' : Document} {draft : Draft}

/-- A field depends on the scalar that its value is. -/
theorem setField_congr {value value' : Node Nat} (h : d.scalar? value = d'.scalar? value')
    (draft : Draft) (key : List Char) :
    draft.setField d key value = draft.setField d' key value' := by
  unfold setField
  rw [h]

theorem fill_congr {entries entries' : List (Node Nat × Node Nat)}
    (h : entries.map d.seen = entries'.map d'.seen) (draft : Draft) :
    fill d draft entries = fill d' draft entries' := by
  induction entries generalizing draft entries' with
  | nil =>
    obtain rfl := List.map_eq_nil_iff.mp h.symm
    rfl
  | cons e entries ih =>
    obtain ⟨e', rest, rfl, he, hrest⟩ := List.map_eq_cons_iff.mp h.symm
    obtain ⟨hkey, hvalue⟩ := Prod.mk.inj he
    simp only [fill, hkey, setField_congr hvalue.symm, ih hrest.symm]

theorem fill_append (d : Document) (draft : Draft) (front back : List (Node Nat × Node Nat)) :
    fill d draft (front ++ back) = (fill d draft front).bind fun draft => fill d draft back := by
  induction front generalizing draft with
  | nil => rfl
  | cons e front ih =>
    obtain ⟨key, value⟩ := e
    simp [fill, ih, Option.bind_assoc]

theorem setField_start (h : draft.startedAt = none) (value : Node Nat) :
    draft.setField d startKey value = (d.scalar? value).bind fun s =>
      (present? s).map fun _ => { draft with startedAt := some (startOf s) } := by
  have hversion : (startKey == "version".toList) = false := by decide
  have hhost : (startKey == "host".toList) = false := by decide
  have hport : (startKey == "port".toList) = false := by decide
  have hpid : (startKey == "pid".toList) = false := by decide
  have hstart : (startKey == "started_at".toList) = true := by decide
  simp only [setField, hversion, hhost, hport, hpid, hstart, Bool.false_eq_true, if_false, if_true]
  cases d.scalar? value with
  | none => rfl
  | some s =>
    cases hpresent : present? s with
    | none => simp [hpresent]
    | some there =>
      cases there with
      | false => simp [hpresent, once, h, startOf_eq_none hpresent]
      | true => simp [hpresent, once, h, startOf]

/-- The other fields are read as they are without a start time. -/
theorem setField_of_ne {key : List Char} (hkey : key ≠ startKey) (value : Node Nat)
    (start : Option (Option Instant)) :
    { draft with startedAt := start }.setField d key value =
      (draft.setField d key value).map fun read => { read with startedAt := start } := by
  have hstart : (key == "started_at".toList) = false := beq_false_of_ne hkey
  unfold setField
  simp only [hstart, Bool.false_eq_true, if_false]
  split_ifs with hversion
  · cases d.scalar? value with
    | none => rfl
    | some s =>
      cases hpresent : present? s with
      | none => simp [hpresent]
      | some there => cases there <;> simp [hpresent, Option.map_bind]
  all_goals simp [Option.map_bind]

theorem fill_of_no_start {entries : List (Node Nat × Node Nat)}
    (h : ∀ e ∈ entries, ¬IsStart (d.seen e)) (draft : Draft) (start : Option (Option Instant)) :
    fill d { draft with startedAt := start } entries =
      (fill d draft entries).map fun read => { read with startedAt := start } := by
  induction entries generalizing draft with
  | nil => rfl
  | cons e entries ih =>
    obtain ⟨key, value⟩ := e
    rw [List.forall_mem_cons] at h
    simp only [fill, Option.bind_eq_bind]
    cases hkey : d.scalar? key with
    | none => rfl
    | some s =>
      have hne : s.text ≠ startKey := fun htext => h.1 ⟨s, hkey, htext⟩
      rw [Option.bind_some, Option.bind_some, setField_of_ne hne]
      cases draft.setField d s.text value with
      | none => rfl
      | some read => exact ih h.2 read

/-- An entry for the start time, put between others, is read for itself. -/
theorem fill_start {front back : List (Node Nat × Node Nat)} {key value : Node Nat}
    (hkey : IsStart (d.seen (key, value))) (hfront : ∀ e ∈ front, ¬IsStart (d.seen e))
    (hback : ∀ e ∈ back, ¬IsStart (d.seen e)) (hdraft : draft.startedAt = none) :
    fill d draft (front ++ (key, value) :: back) = (d.scalar? value).bind fun s =>
      (present? s).bind fun _ => (fill d draft (front ++ back)).map fun read =>
        { read with startedAt := some (startOf s) } := by
  obtain ⟨k, hk, htext⟩ := hkey
  have hk : d.scalar? key = some k := hk
  have hkept : fill d draft front = (fill d draft front).map fun read =>
      { read with startedAt := none } := by
    rw [← fill_of_no_start hfront, ← hdraft]
  rw [fill_append, fill_append, hkept]
  cases fill d draft front with
  | none => cases d.scalar? value <;> simp
  | some read =>
    simp only [Option.map_some, Option.bind_some, fill, hk, htext, Option.bind_eq_bind,
      setField_start]
    cases d.scalar? value with
    | none => rfl
    | some s =>
      cases hpresent : present? s with
      | none => simp [hpresent]
      | some there =>
        simp only [Option.bind_some, hpresent, Option.map_some]
        exact fill_of_no_start hback { read with startedAt := none } (some (startOf s))

end Draft

/-! ### Whole records -/

variable {front back : List Seen} {key : Scalar} {value : Option Scalar}

/-- A document with an entry more for the start time. -/
theorem ofDocument?_start {d d' : Document} (h : d.outline? = some (front ++ back))
    (h' : d'.outline? = some (front ++ (some key, value) :: back)) (hkey : key.text = startKey)
    (hother : ∀ e ∈ front ++ back, ¬IsStart e) :
    ofDocument? d' = value.bind fun s => (present? s).bind fun _ =>
      (ofDocument? d).map fun r => { r with startedAt := startOf s } := by
  unfold Document.outline? at h h'
  split at h
  case h_2 => cases h
  next entries hroot =>
  split at h'
  case h_2 => cases h'
  next entries' hroot' =>
  have hentries := Option.some.inj h
  have hentries' := Option.some.inj h'
  obtain ⟨first', rest, rfl, hfirst', hrest⟩ := List.map_eq_append_iff.mp hentries'
  obtain ⟨⟨k, v⟩, last', rfl, hadded, hlast'⟩ := List.map_eq_cons_iff.mp hrest
  obtain ⟨hk, rfl⟩ := Prod.mk.inj hadded
  have hsame : entries.map d.seen = (first' ++ last').map d'.seen := by
    rw [hentries, List.map_append, hfirst', hlast']
  have hfront : ∀ e ∈ first', ¬IsStart (d'.seen e) := fun e he =>
    hother _ (List.mem_append_left _ (hfirst' ▸ List.mem_map_of_mem he))
  have hback : ∀ e ∈ last', ¬IsStart (d'.seen e) := fun e he =>
    hother _ (List.mem_append_right _ (hlast' ▸ List.mem_map_of_mem he))
  have hstart : IsStart (d'.seen (k, v)) := ⟨key, hk, hkey⟩
  have hnew : Draft.startedAt {} = none := rfl
  have hfill := Draft.fill_start hstart hfront hback hnew
  simp only [ofDocument?, hroot, hroot', hfill, Draft.fill_congr hsame, Option.map_bind,
    Option.map_map, Function.comp_def]
  rfl

/-- A start time that is added to a record's mapping leaves the other fields as they were, and is
the instant of its text or none. That is so exactly if it is a scalar, and no plain one that has the
tag of null and another text: a sequence, a mapping and such a scalar hide the record. -/
theorem start_added {text text' : String} {r : Record}
    (hread : (Yaml.read? text.toList).bind Document.outline? = some (front ++ back))
    (hadded : (Yaml.read? text'.toList).bind Document.outline? =
      some (front ++ (some key, value) :: back))
    (hkey : key.text = startKey) (hother : ∀ e ∈ front ++ back, ¬IsStart e)
    (hr : parse? text = some r) :
    (parse? text' = some { r with startedAt := value.bind startOf } ↔
      ∃ s ∈ value, ¬s.Mistagged) ∧
    ((¬∃ s ∈ value, ¬s.Mistagged) → parse? text' = none) := by
  obtain ⟨d, hd, houtline⟩ := Option.bind_eq_some_iff.mp hread
  obtain ⟨d', hd', houtline'⟩ := Option.bind_eq_some_iff.mp hadded
  have husable := usable_of_parse? hr
  have hrecord : ofDocument? d = some r := by
    simp only [parse?, hd, Option.bind_eq_bind, Option.bind_some, Option.bind_eq_some_iff] at hr
    obtain ⟨r', hr', h⟩ := hr
    split_ifs at h
    rw [hr', h]
  have hparse : parse? text' = value.bind fun s => (present? s).map fun _ =>
      { r with startedAt := startOf s } := by
    simp only [parse?, hd', Option.bind_eq_bind, Option.bind_some,
      ofDocument?_start houtline houtline' hkey hother, hrecord]
    cases value with
    | none => rfl
    | some s =>
      cases hpresent : present? s with
      | none => simp [hpresent]
      | some there => simp [hpresent, show Usable { r with startedAt := startOf s } from husable]
  rw [hparse]
  cases value with
  | none => simp
  | some s =>
    have hnone := present?_eq_none_iff s
    cases hpresent : present? s with
    | none => simp [hpresent, hnone.mp hpresent]
    | some there =>
      have htagged : ¬s.Mistagged := fun h => by simp [hnone.mpr h] at hpresent
      simp [hpresent, htagged]

/-- A record without a start time. -/
def plainRecord : String := "port: 9000\npid: 7\n"

/-- The same with one between the port and the pid, in another style than theirs. -/
def startedRecord : String := "port: 9000\n'started_at': \" 2025-03-01T09:30:12Z \"\npid: 7\n"

theorem quoted_start_added :
    let plain (text : String) : Scalar := { style := .plain, text := text.toList }
    let quoted (text : String) : Scalar := { style := .quoted, text := text.toList }
    let port : Seen := (some (plain "port"), some (plain "9000"))
    let pid : Seen := (some (plain "pid"), some (plain "7"))
    let start := quoted " 2025-03-01T09:30:12Z "
    let r : Record := { port := 9000, pid := 7 }
    ((Yaml.read? plainRecord.toList).bind Document.outline? = some ([port] ++ [pid]) ∧
      (Yaml.read? startedRecord.toList).bind Document.outline? =
        some ([port] ++ (some (quoted "started_at"), some start) :: [pid]) ∧
      (quoted "started_at").text = startKey ∧ (∀ e ∈ [port] ++ [pid], ¬IsStart e) ∧
      parse? plainRecord = some r) ∧
    parse? startedRecord = some { r with startedAt := startOf start } ∧
    startOf start = some ⟨1740821412, 0, by decide, by decide⟩ := by
  intro plain quoted port pid start r
  have hread : (Yaml.read? plainRecord.toList).bind Document.outline? = some ([port] ++ [pid]) := by
    decide +kernel
  have hadded : (Yaml.read? startedRecord.toList).bind Document.outline? =
      some ([port] ++ (some (quoted "started_at"), some start) :: [pid]) := by
    decide +kernel
  have hother : ∀ e ∈ [port] ++ [pid], ¬IsStart e := by
    rintro e he ⟨k, hk, htext⟩
    obtain rfl | rfl : e = port ∨ e = pid := by simpa using he
    all_goals
      cases hk
      exact absurd htext (by decide +kernel)
  have hr : parse? plainRecord = some r := by decide +kernel
  have htagged : ¬start.Mistagged := by decide
  have hstart : startOf start = some ⟨1740821412, 0, by decide, by decide⟩ := by decide +kernel
  have hadds := (start_added hread hadded rfl hother hr).1.mpr ⟨start, rfl, htagged⟩
  exact ⟨⟨hread, hadded, rfl, hother, hr⟩, hadds, hstart⟩

/-- The parts of a date hide the record as a start time. -/
theorem listed_start_hides :
    parse? plainRecord = some { port := 9000, pid := 7 } ∧
      parse? (plainRecord ++ "started_at: [2025, 3, 1]\n") = none := by
  decide +kernel

end Record

end Vigil
