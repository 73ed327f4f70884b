import Vigil.Link.State
import Vigil.Record.Basic
/-! Keeping a connection: try until one is there, wait until it is lost, and try again. -/
namespace Vigil.Link

/-- Where a loop that keeps the connection stands. -/
inductive Loop where
  | ready
  | acquiring
  /-- Waits after an attempt that brought no connection. -/
  | retrying (due : Nat)
  /-- Waits to hear that the connection is lost. -/
  | parked
  /-- Waits after it heard that the connection is lost. -/
  | holdingOff (due : Nat)
  | finished
deriving DecidableEq, Repr

inductive ReconnectDeed where
  | attempt
  | enter (state : State)
  /-- Whoever asked for it is told of the new connection. -/
  | announce (r : Record)
deriving DecidableEq, Repr

structure Reconnect where
  /-- The wait between two attempts, in nanoseconds. -/
  interval : Nat
  now : Nat := 0
  state : State := .never
  stopped : Bool := false
  /-- A lost connection that no loop has heard of. -/
  permit : Bool := false
  /-- The loops that wait to hear of a lost connection, in line. -/
  waiting : List Nat := []
  loops : List Loop := []
  /-- Every deed with its instant, the newest first. -/
  trail : List (Nat × ReconnectDeed) := []
deriving DecidableEq, Repr

namespace Reconnect

def note (c : Reconnect) (d : ReconnectDeed) : Reconnect := { c with trail := (c.now, d) :: c.trail }

def enter (c : Reconnect) (s : State) : Reconnect := { c with state := s }.note (.enter s)

/-- The first loop in line hears of it; with none in line, the next one to wait will. -/
def notify (c : Reconnect) : Reconnect :=
  match c.waiting with
  | [] => { c with permit := true }
  | _ :: rest => { c with waiting := rest }

/-- Says that the connection is lost, which means something only when there is one. -/
def markDisconnected (c : Reconnect) : Reconnect :=
  if c.state = .connected then (c.enter .lost).notify else c

def stop (c : Reconnect) : Reconnect := { c with stopped := true }

def spawn (c : Reconnect) : Reconnect := { c with loops := c.loops ++ [.ready] }

def put (c : Reconnect) (n : Nat) (l : Loop) : Reconnect := { c with loops := c.loops.set n l }

def finish (c : Reconnect) (n : Nat) : Reconnect :=
  { c with waiting := c.waiting.filter (· != n) }.put n .finished

def holdOff (c : Reconnect) (n : Nat) : Reconnect := c.put n (.holdingOff (c.now + c.interval))

def park (c : Reconnect) (n : Nat) : Reconnect :=
  if c.permit then { c with permit := false }.holdOff n
  else { c with waiting := c.waiting ++ [n] }.put n .parked

def loopReady (c : Reconnect) (n : Nat) : Bool :=
  match c.loops[n]? with
  | some .ready => true
  | some (.retrying due) | some (.holdingOff due) => c.stopped || decide (due ≤ c.now)
  | some .parked => c.stopped || !c.waiting.contains n
  | _ => false

/-- Goes on to the next wait or the next attempt; a stopped loop finishes instead. -/
def turn (n : Nat) (c : Reconnect) : Reconnect :=
  if !c.loopReady n then c
  else if c.stopped then c.finish n
  else match c.loops[n]? with
    | some .ready => if c.state = .connected then c.park n else (c.note .attempt).put n .acquiring
    | some (.retrying _) | some (.holdingOff _) => c.put n .ready
    | some .parked => c.holdOff n
    | _ => c

/-- An acquisition brought a connection; once stopped, it counts for nothing. -/
def connect (c : Reconnect) (r : Record) : Reconnect :=
  if c.stopped then c else (c.enter .connected).note (.announce r)

/-- Goes on behind an acquisition, whatever it brought. -/
def resume (c : Reconnect) (n : Nat) : Reconnect :=
  if c.stopped then c.finish n
  else if c.state = .connected then c.park n
  else c.put n (.retrying (c.now + c.interval))

def wakes (c : Reconnect) : List Nat :=
  c.loops.filterMap fun
    | .retrying due | .holdingOff due => some due
    | _ => none

/-- The starts of the attempts so far, the oldest first. -/
def attempts (c : Reconnect) : List Nat :=
  c.trail.reverse.filterMap fun
    | (at_, .attempt) => some at_
    | _ => none

end Reconnect

end Vigil.Link
