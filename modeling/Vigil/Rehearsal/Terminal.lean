import Vigil.Rehearsal.Console
import Vigil.Script.Run
/-! A rehearsed machine on which the programs that are launched are those that scripts can call, and
scripts. -/
namespace Vigil.Rehearsal

def Launch.job (l : Launch) : Script.Job :=
  let p : Script.Job := {
    name := l.path
    pid := l.pid.toNat
    workDir := l.workDir
    tree := l.tree
    executable := l.executable }
  p.withEnvironment (l.env.map fun v => (v.1.toList, v.2.toList))

def Launch.doings (l : Launch) : Doings :=
  let p := l.job.start (l.image.place.getLast?.getD "") l.image.words
  { changes := p.history.reverse, ends := p.now, tree := p.tree }

/-- A machine that runs what is launched. -/
structure Terminal extends Console where
  performs := Launch.doings

end Vigil.Rehearsal
