import Vigil.Text.Number
/-! The wire format: variable-length integers, field keys, and fields that are passed over. -/
namespace Vigil.Wire

abbrev Bytes := List UInt8

inductive WireType where
  | varint | sixtyFourBit | lengthDelimited | startGroup | endGroup | thirtyTwoBit
deriving DecidableEq, Repr

namespace WireType

def code : WireType → Nat
  | varint => 0
  | sixtyFourBit => 1
  | lengthDelimited => 2
  | startGroup => 3
  | endGroup => 4
  | thirtyTwoBit => 5

def ofCode? : Nat → Option WireType
  | 0 => some varint
  | 1 => some sixtyFourBit
  | 2 => some lengthDelimited
  | 3 => some startGroup
  | 4 => some endGroup
  | 5 => some thirtyTwoBit
  | _ => none

def name : WireType → String
  | varint => "Varint"
  | sixtyFourBit => "SixtyFourBit"
  | lengthDelimited => "LengthDelimited"
  | startGroup => "StartGroup"
  | endGroup => "EndGroup"
  | thirtyTwoBit => "ThirtyTwoBit"

end WireType

inductive Fault where
  | varint
  | underflow
  | notUtf8
  | wireType (actual expected : WireType)
  | wireTypeCode (code : Nat)
  | key (value : Nat)
  | tag (value : Nat)
  | lengthExceeded
  | endGroup
  | tooDeep
deriving DecidableEq, Repr

def Fault.message : Fault → String
  | varint => "invalid varint"
  | underflow => "buffer underflow"
  | notUtf8 => "invalid string value: data is not UTF-8 encoded"
  | wireType actual expected =>
    "invalid wire type: " ++ actual.name ++ " (expected " ++ expected.name ++ ")"
  | wireTypeCode code => "invalid wire type value: " ++ toString code
  | key value => "invalid key value: " ++ toString value
  | tag value => "invalid tag value: " ++ toString value
  | lengthExceeded => "delimited length exceeded"
  | endGroup => "unexpected end group tag"
  | tooDeep => "recursion limit reached"

/-- A fault with the message and field it was met in, innermost first. -/
structure DecodeError where
  fault : Fault
  path : List (String × String) := []
deriving DecidableEq, Repr

def DecodeError.message (e : DecodeError) : String :=
  "failed to decode Protobuf message: " ++
    String.join (e.path.map fun p => p.1 ++ "." ++ p.2 ++ ": ") ++ e.fault.message

def DecodeError.within (message field : String) (e : DecodeError) : DecodeError :=
  { e with path := e.path ++ [(message, field)] }

def fail {α : Type} (f : Fault) : Except DecodeError α := .error { fault := f }

/-- Seven bits a byte, the lowest first; the top bit says that more follow. -/
def putVarint (n : Nat) : Bytes :=
  if n < 128 then [n.toUInt8] else (128 + n % 128).toUInt8 :: putVarint (n / 128)
termination_by n

/-- At most `left` more bytes, whose bits have the weight `scale`. Of a tenth byte only the
lowest bit fits. -/
def takeVarintFrom : Nat → Nat → Nat → Bytes → Except DecodeError (Nat × Bytes)
  | 0, _, _, _ => fail .varint
  | _ + 1, _, _, [] => fail .varint
  | left + 1, scale, value, b :: rest =>
    let n := b.toNat
    if n < 128 then
      if left == 0 && 2 ≤ n then fail .varint else .ok (value + n * scale, rest)
    else takeVarintFrom left (scale * 128) (value + (n - 128) * scale) rest

def takeVarint (bytes : Bytes) : Except DecodeError (Nat × Bytes) := takeVarintFrom 10 1 0 bytes

def keyOf (tag : Nat) (w : WireType) : Nat := tag * 8 + w.code

def takeKey (bytes : Bytes) : Except DecodeError ((Nat × WireType) × Bytes) := do
  let (key, rest) ← takeVarint bytes
  if u32Max < key then fail (.key key)
  else match WireType.ofCode? (key % 8) with
    | none => fail (.wireTypeCode (key % 8))
    | some w => if key / 8 == 0 then fail (.tag 0) else .ok ((key / 8, w), rest)

def takeBytes (count : Nat) (bytes : Bytes) : Except DecodeError (Bytes × Bytes) :=
  if bytes.length < count then fail .underflow else .ok (bytes.take count, bytes.drop count)

/-- How deep messages and groups may nest. -/
def depthLimit : Nat := 100

/-- Passes over a field behind its key. A group is passed over up to its end; `group` then holds
the tags of the groups that are open, and `depth` what is left of the limit inside the innermost.
Each call takes one from the first argument. -/
def skipFrom : Nat → Nat → List Nat → Nat × WireType → Bytes → Except DecodeError Bytes
  | 0, _, _, _, _ => fail .tooDeep
  | left + 1, depth, group, (tag, w), bytes =>
    let goOn (depth : Nat) (group : List Nat) (bytes : Bytes) : Except DecodeError Bytes :=
      match group with
      | [] => .ok bytes
      | _ :: _ => do
        let (key, rest) ← takeKey bytes
        skipFrom left depth group key rest
    match w with
    | .endGroup =>
      match group with
      | open_ :: outer =>
        if open_ == tag then goOn (depth + 1) outer bytes else fail .endGroup
      | [] => if depth == 0 then fail .tooDeep else fail .endGroup
    | _ =>
      if depth == 0 then fail .tooDeep
      else match w with
        | .varint => do
          let (_, rest) ← takeVarint bytes
          goOn depth group rest
        | .thirtyTwoBit => do
          let (_, rest) ← takeBytes 4 bytes
          goOn depth group rest
        | .sixtyFourBit => do
          let (_, rest) ← takeBytes 8 bytes
          goOn depth group rest
        | .lengthDelimited => do
          let (n, rest) ← takeVarint bytes
          let (_, rest) ← takeBytes n rest
          goOn depth group rest
        | _ => goOn (depth - 1) (tag :: group) bytes

def skip (depth : Nat) (key : Nat × WireType) (bytes : Bytes) : Except DecodeError Bytes :=
  skipFrom (bytes.length + 2) depth [] key bytes

end Vigil.Wire
