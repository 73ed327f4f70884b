import Vigil.Link.Reconnect
import Vigil.Rehearsal.Turns
/-! Reconnecting with acquisitions whose outcomes are laid down. -/
namespace Vigil.Rehearsal

open Link

structure Outcome where
  record : Option Record := none
  /-- How long the acquisition takes, in nanoseconds. -/
  delay : Nat := 0
  /-- Whether it stops the reconnecting just before it ends. -/
  stops : Bool := false

/-- What is done when a connection is announced. -/
inductive Reaction where
  | record | disconnect | stop
deriving DecidableEq, Repr

structure Reconnecting where
  control : Reconnect
  outcomes : List Outcome := []
  /-- The acquisitions under way: whose, when they end, and how. -/
  pending : List (Nat × Nat × Outcome) := []
  /-- Who is told of a connection, and what it does then. -/
  hook : Option (String × Reaction) := none
  /-- Who was told of a connection, when, and where it leads; the newest first. -/
  told : List (String × Nat × String) := []

namespace Reconnecting

def ended (s : Reconnecting) (n : Nat) : Option (Nat × Nat × Outcome) :=
  s.pending.find? fun p => decide (p.1 = n ∧ p.2.1 ≤ s.control.now)

def isReady (s : Reconnecting) (n : Nat) : Bool := s.control.loopReady n || (s.ended n).isSome

def react (c : Reconnect) : Reaction → Reconnect
  | .record => c
  | .disconnect => c.markDisconnected
  | .stop => c.stop

/-- Tells of a new connection. -/
def announce (s : Reconnecting) (r : Record) : Reconnecting :=
  match s.hook with
  | none => s
  | some (name, reaction) =>
    { s with
      told := (name, s.control.now, r.endpoint) :: s.told
      control := react s.control reaction }

def finish (s : Reconnecting) (n : Nat) (o : Outcome) : Reconnecting :=
  let c := if o.stops then s.control.stop else s.control
  let s := { s with control := c, pending := s.pending.filter (·.1 != n) }
  let s := match o.record with
    | some r => if c.stopped then s else { s with control := c.connect r }.announce r
    | none => s
  { s with control := s.control.resume n }

/-- With no outcome left an acquisition fails at once. -/
def start (s : Reconnecting) (n : Nat) : Reconnecting :=
  let o := s.outcomes.head?.getD {}
  { s with
    outcomes := s.outcomes.drop 1
    pending := s.pending ++ [(n, s.control.now + o.delay, o)] }

def turn (n : Nat) (s : Reconnecting) : Reconnecting :=
  match s.ended n with
  | some (_, _, o) => s.finish n o
  | none =>
    let s := { s with control := s.control.turn n }
    if s.control.loops[n]? = some .acquiring then s.start n else s

def cast : Cast Reconnecting Nat where
  tasks s := List.range s.control.loops.length
  isReady := isReady
  turn := turn
  now s := s.control.now
  moveTo t s := { s with control := { s.control with now := t } }
  wakes s := s.control.wakes ++ s.pending.map (·.2.1)

end Reconnecting

end Vigil.Rehearsal
