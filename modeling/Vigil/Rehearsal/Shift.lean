import Vigil.Rehearsal.Streaming
import Vigil.Rehearsal.World
import Vigil.Shell.Run
/-! A run of the shell on a rehearsed machine. -/
namespace Vigil.Rehearsal

open Shell

structure Shift where
  run : Run World
  /-- The other side of the streams; its subscriptions are those of the run. -/
  source : Streaming := {}
  /-- Whether the daemon answers nobody. -/
  unreachable : Bool := false

namespace Shift

inductive Task where
  | world | main | loop | watch
  | pump (id : Nat)
deriving DecidableEq, Repr

def streaming (s : Shift) : Streaming := { s.source with subscriptions := s.run.subscriptions }

def world (s : Shift) : World := s.run.supervision.world

def withWorld (s : Shift) (world : World) : Shift :=
  { s with run := { s.run with supervision := { s.run.supervision with world } } }

def isReady (s : Shift) : Task → Bool
  | .world => s.world.isReady
  | .main => s.run.mainReady
  | .loop => s.run.reconnect.loopReady 0
  | .watch => s.run.watchReady
  | .pump id => s.run.subscriptions.isReady s.source.answer id

/-- An acquisition finds the living daemon at once. -/
def loopTurn (s : Shift) : Run World :=
  let r := s.run.loopTurn
  if r.reconnect.loops[0]? = some .acquiring then
    r.acquired (if s.unreachable then none else s.world.live)
  else r

def turn (t : Task) (s : Shift) : Shift :=
  match t with
  | .world => s.withWorld s.world.turn
  | .main => { s with run := s.run.mainTurn }
  | .loop => { s with run := s.loopTurn }
  | .watch => { s with run := s.run.watchTurn }
  | .pump id =>
    let run := s.run.pumpTurn s.source.answer id
    { s with run, source := s.streaming.advance id run.subscriptions }

def moveTo (t : Nat) (s : Shift) : Shift :=
  { s with run := s.run.moveTo t }.withWorld { s.world with now := t }

def cast : Cast Shift Task where
  tasks s := [.world, .main, .loop, .watch] ++
    (List.range s.run.subscriptions.all.length).map .pump
  isReady := isReady
  turn := turn
  now s := s.run.now
  moveTo := moveTo
  wakes s := s.world.ahead.map (·.1) ++ s.run.wakes

end Shift

end Vigil.Rehearsal
