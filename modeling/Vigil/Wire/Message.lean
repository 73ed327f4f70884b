import Vigil.Text.Utf8
import Vigil.Wire.Format
/-! Messages as lists of fields, each of which knows how it is written and read. -/
namespace Vigil.Wire

/-- One field of messages `α`. -/
structure Field (α : Type) where
  tag : Nat
  name : String
  wireType : WireType
  /-- What is written behind the key, for each time the field is written. -/
  put : α → List Bytes
  /-- Reads behind a key; the first argument is how much deeper messages may nest. -/
  take : Nat → α → Bytes → Except DecodeError (α × Bytes)

structure Message (α : Type) where
  name : String
  empty : α
  fields : List (Field α)

def delimited (bytes : Bytes) : Bytes := putVarint bytes.length ++ bytes

def takeDelimited (bytes : Bytes) : Except DecodeError (Bytes × Bytes) := do
  let (n, rest) ← takeVarint bytes
  takeBytes n rest

namespace Message

def encode {α : Type} (m : Message α) (a : α) : Bytes :=
  m.fields.flatMap fun f =>
    (f.put a).flatMap fun body => putVarint (keyOf f.tag f.wireType) ++ body

/-- Reads the field behind a key; a field that is not the message's is passed over. -/
def takeField {α : Type} (m : Message α) (depth : Nat) (a : α) (key : Nat × WireType)
    (bytes : Bytes) : Except DecodeError (α × Bytes) :=
  match m.fields.find? fun f => f.tag == key.1 with
  | none => (skip depth key bytes).map (a, ·)
  | some f =>
    let result : Except DecodeError (α × Bytes) :=
      if key.2 = f.wireType then f.take depth a bytes else fail (.wireType key.2 f.wireType)
    result.mapError (·.within m.name f.name)

/-- Reads fields until no more than `limit` bytes are left. Each call takes one from the first
argument. -/
def takeFields {α : Type} (m : Message α) (depth limit : Nat) :
    Nat → α → Bytes → Except DecodeError (α × Bytes)
  | 0, a, bytes => .ok (a, bytes)
  | left + 1, a, bytes =>
    if bytes.length ≤ limit then .ok (a, bytes)
    else do
      let (key, rest) ← takeKey bytes
      let (a, rest) ← m.takeField depth a key rest
      m.takeFields depth limit left a rest

/-- Every field takes a byte at least. -/
def decode {α : Type} (m : Message α) (bytes : Bytes) : Except DecodeError α :=
  (m.takeFields depthLimit 0 bytes.length m.empty bytes).map (·.1)

/-- Reads a message inside another, whose length stands in front of it. -/
def takeNested {α : Type} (m : Message α) (depth : Nat) (a : α) (bytes : Bytes) : Except DecodeError (α × Bytes) :=
  if depth == 0 then fail .tooDeep
  else do
    let (n, rest) ← takeVarint bytes
    if rest.length < n then fail .underflow
    else
      let limit := rest.length - n
      let (a, rest) ← m.takeFields (depth - 1) limit rest.length a rest
      if rest.length = limit then .ok (a, rest) else fail .lengthExceeded

end Message

namespace Field

variable {α β : Type}

/-- A field whose empty value is left out, and which keeps the last value read. -/
def plain (tag : Nat) (name : String) (w : WireType) (get : α → β) (set : α → β → α)
    (isEmpty : β → Bool) (put : β → Bytes) (take : Bytes → Except DecodeError (β × Bytes)) : Field α where
  tag := tag
  name := name
  wireType := w
  put a := if isEmpty (get a) then [] else [put (get a)]
  take _ a bytes := (take bytes).map fun (b, rest) => (set a b, rest)

def putText (s : String) : Bytes := delimited (Utf8.encodeText s)

def takeText (bytes : Bytes) : Except DecodeError (String × Bytes) := do
  let (body, rest) ← takeDelimited bytes
  match Utf8.decodeText? body with
  | some s => .ok (s, rest)
  | none => fail .notUtf8

def text (tag : Nat) (name : String) (get : α → String) (set : α → String → α) : Field α :=
  plain tag name .lengthDelimited get set (· == "") putText takeText

def bytes (tag : Nat) (name : String) (get : α → Bytes) (set : α → Bytes → α) : Field α :=
  plain tag name .lengthDelimited get set (·.isEmpty) delimited takeDelimited

/-- Negative numbers are written as if they had 64 bits. -/
def putInt (n : Int) : Bytes := putVarint (n % 18446744073709551616).toNat

def takeInt (bytes : Bytes) : Except DecodeError (Int × Bytes) := (takeVarint bytes).map fun (n, rest) => ((n : Int), rest)

def int32 (tag : Nat) (name : String) (get : α → Int32) (set : α → Int32 → α) : Field α :=
  plain tag name .varint get set (· == 0) (putInt ·.toInt)
    fun bytes => (takeInt bytes).map fun (n, rest) => (Int32.ofInt n, rest)

def int64 (tag : Nat) (name : String) (get : α → Int64) (set : α → Int64 → α) : Field α :=
  plain tag name .varint get set (· == 0) (putInt ·.toInt)
    fun bytes => (takeInt bytes).map fun (n, rest) => (Int64.ofInt n, rest)

def bool (tag : Nat) (name : String) (get : α → Bool) (set : α → Bool → α) : Field α :=
  plain tag name .varint get set (!·) (fun b => putVarint b.toNat)
    fun bytes => (takeVarint bytes).map fun (n, rest) => (n != 0, rest)

/-- Each text is written, also an empty one; each text read comes behind those before it. -/
def texts (tag : Nat) (name : String) (get : α → List String) (set : α → List String → α) :
    Field α where
  tag := tag
  name := name
  wireType := .lengthDelimited
  put a := (get a).map putText
  take _ a bytes := (takeText bytes).map fun (s, rest) => (set a (get a ++ [s]), rest)

/-- A message that may be absent. One read later is merged into the one there is. -/
def nested (tag : Nat) (name : String) (m : Message β) (get : α → Option β)
    (set : α → Option β → α) : Field α where
  tag := tag
  name := name
  wireType := .lengthDelimited
  put a := (get a).toList.map fun b => delimited (m.encode b)
  take depth a bytes :=
    (m.takeNested depth ((get a).getD m.empty) bytes).map fun (b, rest) => (set a (some b), rest)

def nestedList (tag : Nat) (name : String) (m : Message β) (get : α → List β)
    (set : α → List β → α) : Field α where
  tag := tag
  name := name
  wireType := .lengthDelimited
  put a := (get a).map fun b => delimited (m.encode b)
  take depth a bytes :=
    (m.takeNested depth m.empty bytes).map fun (b, rest) => (set a (get a ++ [b]), rest)

end Field

end Vigil.Wire
