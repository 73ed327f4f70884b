import Vigil.Cli.Arguments
import Vigil.Cli.Outcome
import Vigil.Daemon.Liveness
import Vigil.Daemon.Locator
import Vigil.Daemon.Programs
import Vigil.Files.JsonFile
import Vigil.Record.Reader
import Vigil.Rehearsal.Shift
import Vigil.Rehearsal.Supervised
/-! The command line tried on a rehearsed machine, on whose network nobody can be reached. What the
programs do that it launches is the machine's own. -/
namespace Vigil.Rehearsal

/-- A run whose lines are shown as they come. -/
structure Screen where
  shift : Shift
  view : Shell.Presentation := {}
  lines : List String := []

namespace Screen

def refresh (s : Screen) : Screen :=
  let (queue, events) := s.shift.run.queue.drain
  let (view, lines) := s.view.renderAll events
  { shift := { s.shift with run := { s.shift.run with queue } }
    view := view
    lines := s.lines ++ lines }

/-- The tasks are those of the run, and one that shows the lines. -/
def cast : Cast Screen (Option Shift.Task) where
  tasks s := (Shift.cast.tasks s.shift).map some ++ [none]
  isReady s t := t.elim (!s.shift.run.queue.events.isEmpty) (Shift.cast.isReady s.shift)
  turn t s := t.elim s.refresh fun t => { s with shift := Shift.cast.turn t s.shift }
  now s := Shift.cast.now s.shift
  moveTo t s := { s with shift := Shift.cast.moveTo t s.shift }
  wakes s := Shift.cast.wakes s.shift

def result? (s : Screen) : Option (Except Daemon.StartError Shell.Exit) :=
  match s.shift.run.stage with
  | .exited _ result => some result
  | _ => none

end Screen

/-- What becomes of the record while a process runs, as far as trees of files show it. -/
def recordChanges (read : Files.Tree → Option Record) (pid : UInt32) :
    Option Record → List (Nat × Files.Tree) → List (Nat × Happening)
  | _, [] => []
  | before, (t, tree) :: rest =>
    let now := read tree
    let later := recordChanges read pid now rest
    if now = before then later
    else match now with
      | some r => (t, .appear ⟨r, r.pid == pid⟩ none false) :: later
      | none => (t, .withdraw) :: later

/-- A program as it is launched. -/
structure Launch where
  path : String
  image : Daemon.Image
  pid : UInt32
  tree : Files.Tree
  executable : Files.Place → Bool
  env : List (String × String)
  workDir : String

/-- What a launched program does. -/
structure Doings where
  /-- The files as they are changed, with the times. -/
  changes : List (Nat × Files.Tree) := []
  /-- When it ends, and the files that it leaves. -/
  ends : Nat := 0
  tree : Files.Tree

structure Console where
  tree : Files.Tree
  executable : Files.Place → Bool
  env : List (String × String)
  workDir : String
  /-- Where the program's own executable is. -/
  exeDir : String
  alive : List UInt32 := []
  /-- What programs do here. -/
  performs : Launch → Doings := fun l => { tree := l.tree }

/-- What came of a command line. -/
structure Ran where
  exit : Nat
  output : String := ""
  errors : String := ""
  tree : Files.Tree

namespace Console

def home (c : Console) : Home := ⟨c.env.lookup "HOME", c.env.lookup "WATCHFIRE_HOME"⟩

/-- A path as it begins at the root. -/
def rooted (c : Console) (path : String) : String := Path.join c.workDir path

def settingsPath (c : Console) : String := c.home.stateFile Settings.fileName

def settings (c : Console) : Settings :=
  (Settings.load (c.tree.readAt (c.rooted c.settingsPath)).toOption).override fun name => c.env.lookup name

/-- The record in a tree of files. -/
def recordIn (c : Console) (tree : Files.Tree) : Option Record := do
  let bytes ← (tree.readAt (c.rooted (c.settings.recordPath c.home))).toOption
  Record.parse? (← Utf8.decodeText? bytes)

def isAlive (c : Console) (pid : UInt32) : Bool :=
  let signal (n : Nat) : Daemon.Signalled :=
    if c.alive.any fun p => p.toNat == n then .delivered else .nobody
  (Daemon.Liveness.probe signal pid).isAlive

def searchPath (c : Console) : List String := ((c.env.lookup "PATH").map Path.searchList).getD []

def locator (c : Console) : Daemon.Locator :=
  { override := c.settings.binaryPath c.home
    searchPath := c.searchPath
    exeDir := some c.exeDir
    workDir := some c.workDir }

def binary (c : Console) : Option String :=
  c.locator.candidates.find? fun path => c.tree.isFile (c.rooted path)

def programs (c : Console) : Daemon.Programs :=
  { files := c.tree, executable := c.executable, searchPath := c.searchPath, workDir := c.workDir }

/-- What a program does that is launched now. -/
def launched (c : Console) (path : String) (image : Daemon.Image) (pid : UInt32) : Doings :=
  c.performs {
    path, image, pid
    tree := c.tree
    executable := c.executable
    env := c.env
    workDir := c.workDir }

/-- The pid of the first process that is launched. -/
def firstPid : UInt32 := 70000

/-- What so many launches do; each finds the files as the one before left them. -/
def plans (c : Console) (path : String) : Nat → UInt32 → List Plan
  | 0, _ => []
  | n + 1, pid =>
    match c.programs.find path [] with
    | .error e => .fail e.text :: c.plans path n pid
    | .ok image =>
      let d := c.launched path image pid
      let changes := recordChanges c.recordIn pid (c.recordIn c.tree) d.changes
      .steps (changes ++ [(d.ends, .vanish pid false)]) ::
        plans { c with tree := d.tree } path n (pid + 1)

def world (c : Console) : World :=
  { record := c.recordIn c.tree
    alive := c.alive
    binary := c.binary
    plans := c.binary.elim [] fun path => c.plans path 32 firstPid }

/-- Why a launch fails, if it does. -/
def fault (c : Console) : Option Files.FileError :=
  c.binary.bind fun path =>
    match c.programs.find path [] with
    | .error e => some e
    | .ok _ => none

def supervisor (c : Console) : Daemon.Supervisor World :=
  ⟨World.surroundings, c.settings.policies⟩

def ensure (c : Console) : Cli.Outcome :=
  let s : Supervised := {
    supervisor := c.supervisor, state := { world := c.world }, callers := [{}] }
  let g := Supervised.cast.passUntil (fun s => (s.answer? 0).isSome)
    c.settings.policies.start.budget.nanos ⟨s, []⟩
  (g.state.answer? 0).elim {} fun a => Cli.ensured c.fault a.2

/-- How long a run is followed, in nanoseconds. -/
def horizon : Nat := 60000000000

/-- A run that has not begun. -/
def opening (c : Console) (projects : List String) : Screen :=
  let run : Shell.Run World := {
    supervisor := c.supervisor
    projects := projects
    exitDelay := c.settings.shutdownExitDelay.nanos
    supervision := { world := c.world }
    reconnect := { interval := c.settings.reconnectInterval.nanos }
    queue := .ofLimit 512 }
  { shift := { run, unreachable := true } }

def run (c : Console) (projects : List String) : Cli.Outcome :=
  let g := Screen.cast.passUntil (fun s => s.result?.isSome) horizon ⟨c.opening projects, []⟩
  let s := g.state.refresh
  s.result?.elim ⟨s.lines, none⟩ (Cli.ran c.fault s.lines)

def scene (c : Console) : Cli.Place := ⟨c.recordIn c.tree, c.isAlive, .down⟩

def config (c : Console) (save : Bool) : Cli.Outcome × Files.Tree :=
  if save then
    let a := Files.writeJson c.tree (c.rooted c.settingsPath) c.settings.toJson
    (Cli.configured c.settings c.settingsPath (some a.result), a.tree)
  else (Cli.configured c.settings c.settingsPath none, c.tree)

def perform (c : Console) : Cli.Command → Cli.Outcome × Files.Tree
  | .run projects => (c.run projects, c.tree)
  | .ensure => (c.ensure, c.tree)
  | .status => (c.scene.status, c.tree)
  | .shutdown => (c.scene.shutdown, c.tree)
  | .projects => (c.scene.projects, c.tree)
  | .watch project kind => (c.scene.watch project kind, c.tree)
  | .agent command => (c.scene.agent command, c.tree)
  | .config save => c.config save

/-- Arguments that cannot be read are an error, with the first line of what is said about it. -/
def answer (c : Console) (words : List String) : Ran :=
  match Cli.parse words with
  | .error e =>
    if e.exitCode = 0 then
      { exit := 0, output := "".intercalate (e.lines.map (· ++ "\n")), tree := c.tree }
    else { exit := e.exitCode, errors := e.message, tree := c.tree }
  | .ok command =>
    let (o, tree) := c.perform command
    { exit := o.exitCode, output := o.output, errors := o.errors, tree }

end Console

end Vigil.Rehearsal
