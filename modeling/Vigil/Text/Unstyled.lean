import Vigil.Text.Utf8
/-! What is left of a text where there is no terminal: its escape sequences and control characters
are taken out, all but line ends, tabs and form feeds. -/
namespace Vigil.Text

/-- What the bytes before say about the next one. -/
inductive EscapeState where
  | ground
  | escape
  /-- Behind an intermediate byte of an escape sequence. -/
  | intermediate
  | control
  | device
  | command
  | message
  /-- Within a character, of which so many bytes are to come. -/
  | character (left : Nat)
deriving DecidableEq, Repr

namespace EscapeState

def isSpacing (b : Nat) : Bool := b == 9 || b == 10 || b == 12 || b == 13

/-- The state that a byte asks for, if it does, and whether the byte is kept. -/
def change (s : EscapeState) (b : Nat) : Option EscapeState × Bool :=
  if b == 0x18 || b == 0x1A then (some ground, false)
  else if b == 0x1B then (some escape, false)
  else match s with
    | ground =>
      if b < 0x20 then (none, isSpacing b)
      else if b < 0x80 then (none, b != 0x7F)
      else if 0xC2 ≤ b && b ≤ 0xDF then (some (character 1), true)
      else if 0xE0 ≤ b && b ≤ 0xEF then (some (character 2), true)
      else if 0xF0 ≤ b && b ≤ 0xF4 then (some (character 3), true)
      else (none, false)
    | escape =>
      if b < 0x20 then (none, isSpacing b)
      else if b < 0x30 then (some intermediate, false)
      else if b == 0x50 then (some device, false)
      else if b == 0x5B then (some control, false)
      else if b == 0x5D then (some command, false)
      else if b == 0x58 || b == 0x5E || b == 0x5F then (some message, false)
      else (if b < 0x7F then some ground else none, false)
    | intermediate =>
      if b < 0x20 then (none, isSpacing b)
      else (if 0x30 ≤ b && b < 0x7F then some ground else none, false)
    | control =>
      if b < 0x20 then (none, isSpacing b)
      else (if 0x40 ≤ b && b < 0x7F then some ground else none, false)
    | device | message => (if b == 0x9C then some ground else none, false)
    | command => (if b == 7 then some ground else none, false)
    | character _ => (none, true)

end EscapeState

/-- A text while its bytes are passed. In a run of bytes that are kept, each is looked at as in
the ground state; the state before the run stays until a byte asks for another. -/
structure Unstyling where
  state : EscapeState := .ground
  inRun : Bool := false
  /-- What is kept, the last byte first. -/
  kept : List UInt8 := []

namespace Unstyling

/-- A byte that is not in a run; one that is kept begins a run. -/
def skip (u : Unstyling) (b : UInt8) : Unstyling :=
  let (next, isKept) := u.state.change b.toNat
  let u := { u with state := next.getD u.state, inRun := isKept }
  if isKept then { u with kept := b :: u.kept } else u

def step (u : Unstyling) (b : UInt8) : Unstyling :=
  match u.state with
  | .character left =>
    { state := if left ≤ 1 then .ground else .character (left - 1), inRun := true, kept := b :: u.kept }
  | state =>
    if u.inRun then
      let (next, isKept) := EscapeState.ground.change b.toNat
      let u := { u with state := next.getD state }
      if isKept then { u with kept := b :: u.kept } else u.skip b
    else u.skip b

end Unstyling

def unstyledBytes (s : List UInt8) : List UInt8 := (s.foldl Unstyling.step {}).kept.reverse

def unstyled (s : String) : String := String.ofList (Utf8.decodeLossy (unstyledBytes (Utf8.encodeText s)))

end Vigil.Text
