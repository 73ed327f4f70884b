import Vigil.Record.Basic
import Vigil.Time.Rfc3339
import Vigil.Yaml.Anchors
import Vigil.Yaml.Plain
/-! Reading a record from the mapping a YAML text holds. A start time that is no instant is left
out; any other field that does not fit refuses the record. -/
namespace Vigil.Record

open Yaml (Node Scalar Document)

/-- Whether a scalar under an optional field stands for a value; `none` where its tag says null
and its text does not. -/
def present? (s : Scalar) : Option Bool :=
  if s.style != .plain then some true
  else match s.tag with
    | none => some !(s.text.isEmpty || Yaml.isNullText s.text)
    | some t =>
      if t != Yaml.nullTag then some true
      else if Yaml.isNullText s.text then some false
      else none

/-- Numbers are plain, or literal blocks with the tag of an integer. -/
def number? (limit : Nat) (s : Scalar) : Option Nat :=
  if s.style == .plain || (s.style == .literal && s.tag == some Yaml.integerTag) then
    Yaml.unsigned? limit s.text
  else none

/-- The fields of a record while it is read: `none` until a field has been seen. -/
structure Draft where
  version : Option (Option UInt32) := none
  host : Option String := none
  port : Option UInt16 := none
  pid : Option UInt32 := none
  startedAt : Option (Option Instant) := none

namespace Draft

/-- A field given a second time refuses the record. -/
def once {α : Type} (seen : Option α) (new : Option α) : Option (Option α) :=
  if seen.isSome then none else new.map some

def setField (d : Document) (draft : Draft) (key : List Char) (value : Node Nat) : Option Draft :=
  let scalar := d.scalar? value
  if key == "version".toList then do
    let s ← scalar
    let there ← present? s
    let new ← if there then (number? u32Max s).map fun n => some n.toUInt32 else some none
    let version ← once draft.version (some new)
    some { draft with version }
  else if key == "host".toList then do
    let host ← once draft.host (scalar.map fun s => String.ofList s.text)
    some { draft with host }
  else if key == "port".toList then do
    let port ← once draft.port ((scalar.bind (number? u16Max)).map Nat.toUInt16)
    some { draft with port }
  else if key == "pid".toList then do
    let pid ← once draft.pid ((scalar.bind (number? u32Max)).map Nat.toUInt32)
    some { draft with pid }
  else if key == "started_at".toList then do
    let s ← scalar
    let there ← present? s
    let new := if there then Rfc3339.read? (Text.trim s.text) else none
    let startedAt ← once draft.startedAt (some new)
    some { draft with startedAt }
  else some draft

/-- Keys are scalars; unknown ones are passed over with whatever they hold. -/
def fill (d : Document) (draft : Draft) : List (Node Nat × Node Nat) → Option Draft
  | [] => some draft
  | (key, value) :: rest => do
    let key ← d.scalar? key
    let draft ← draft.setField d key.text value
    fill d draft rest

def record (draft : Draft) : Record where
  version := draft.version.getD none
  host := draft.host.getD ""
  port := draft.port.getD 0
  pid := draft.pid.getD 0
  startedAt := draft.startedAt.getD none

end Draft

def ofDocument? (d : Document) : Option Record :=
  match d.root with
  | .map entries => (Draft.fill d {} entries).map Draft.record
  | _ => none

/-- A record that cannot be used counts as none. -/
def parse? (text : String) : Option Record := do
  let d ← Yaml.read? text.toList
  let r ← ofDocument? d
  if r.Usable then some r else none

end Vigil.Record
