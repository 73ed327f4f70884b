import Vigil.Rehearsal.Console
/-! The command line on a real machine. It reads files and the environment, and it shows lines; it
starts no programs and has no network. -/
namespace Vigil.Main

open Rehearsal

def bytesAt (path : String) : IO (Option (List UInt8)) := do
  try return some (← IO.FS.readBinFile path).toList
  catch _ => return none

/-- Whether a file can be read; a directory cannot. -/
def isReadable (path : String) : IO Bool := do
  try
    let h ← IO.FS.Handle.mk path .read
    let _ ← h.read 1
    return true
  catch _ => return false

def names : List String :=
  ["HOME", "WATCHFIRE_HOME", "PATH"] ++ Settings.items.map (·.envName)

/-- The machine as it is now, as far as a command looks at it. -/
def look : IO Console := do
  let env ← names.filterMapM fun name => return (← IO.getEnv name).map (name, ·)
  let workDir := (← IO.currentDir).toString
  let exeDir := (((← IO.appPath).parent).map toString).getD "/"
  let mut t : Console := { tree := {}, executable := fun _ => false, env, workDir, exeDir }
  if let some bytes ← bytesAt t.settingsPath then
    t := { t with tree := t.tree.plant (t.rooted t.settingsPath) bytes }
  let recordPath := t.settings.recordPath t.home
  if let some bytes ← bytesAt recordPath then
    t := { t with tree := t.tree.plant (t.rooted recordPath) bytes }
  for path in t.locator.candidates do
    if ← isReadable path then
      t := { t with tree := t.tree.plant (t.rooted path) [] }
  if let some r := t.recordIn t.tree then
    if (← bytesAt ("/proc/" ++ toString r.pid.toNat ++ "/stat")).isSome then
      t := { t with alive := [r.pid] }
  return t

def errorOf : IO.Error → Files.FileError
  | .noFileOrDirectory .. => .notFound
  | .alreadyExists .. => .alreadyExists
  | .inappropriateType .. => .notADirectory
  | _ => .permissionDenied

def save (t : Console) : IO (Except Files.FileError Unit) := do
  try
    let temporary := t.settingsPath ++ ".tmp"
    IO.FS.createDirAll t.home.sharedDir
    IO.FS.writeFile temporary (String.ofList (Json.pretty t.settings.toJson))
    IO.FS.rename temporary t.settingsPath
    return .ok ()
  catch e => return .error (errorOf e)

def finish (o : Cli.Outcome) : IO UInt32 := do
  IO.print o.output
  IO.eprint o.errors
  return o.exitCode.toUInt32

/-- Goes on with a run to the present and shows what it says, until it ends. -/
partial def follow (start : Nat) (g : Stage Screen (Option Shift.Task)) : IO UInt32 := do
  let t ← look
  let world := { g.state.shift.world with record := t.recordIn t.tree, alive := t.alive }
  let shift := g.state.shift.withWorld world
  let g := Screen.cast.passTo ((← IO.monoNanosNow) - start) { g with state := { g.state with shift } }
  let s := g.state.refresh
  match s.result? with
  | some result => finish (Cli.ran t.fault s.lines result)
  | none =>
    s.lines.forM IO.println
    IO.sleep 10
    follow start { g with state := { s with lines := [] } }

def perform (t : Console) : Cli.Command → IO UInt32
  | .run projects => do follow (← IO.monoNanosNow) ⟨t.opening projects, []⟩
  | .config true => do finish (Cli.configured t.settings t.settingsPath (some (← save t)))
  | command => finish (t.perform command).1

end Vigil.Main

def main (words : List String) : IO UInt32 := do
  match Vigil.Cli.parse words with
  | .ok command => Vigil.Main.perform (← Vigil.Main.look) command
  | .error e =>
    let say := if e.exitCode = 0 then IO.println else IO.eprintln
    e.lines.forM say
    return e.exitCode.toUInt32
