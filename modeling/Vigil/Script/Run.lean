import Vigil.Daemon.Programs
import Vigil.Script.Expansion
import Vigil.Script.Utility
/-! How the commands of a script are run. -/
namespace Vigil.Script

/-- What runs a command within another, and a script within a script. -/
structure Runner where
  command : Job → Command → Job
  script : Job → List Char → Job

namespace Runner

/-- What was to be done at the end is done. -/
def atEnd (r : Runner) (p : Job) : Job :=
  match p.trap? .exit with
  | none => p
  | some script =>
    let q := r.script { p.dropTrap .exit with leaving := none } script
    if q.leaving.isSome then q else { q with status := p.status }

/-- A process of its own: of what it does to itself nothing is left. Signals that are passed over
still are. -/
def apart (r : Runner) (p : Job) (f : Job → Job) : Job :=
  let q := r.atEnd (f { p with
    traps := p.traps.filter fun t => t.2.isEmpty && t.1 != .exit
    keepsSinks := false })
  { p.inherit_ q with status := q.status % 256 }

/-- What a process of its own says. -/
def capture (r : Runner) (p : Job) (f : Job → Job) : Job × List Char :=
  let q := r.apart ({ p with written := [] }.connect 1 .output) f
  ({ p.inherit_ q with written := p.written }, q.said)

def inner (r : Runner) : Inner := fun p script =>
  let (q, s) := r.capture p fun p => r.script p script
  ({ q with status := p.status, innerStatus := some q.status }, s)

/-- Does what a script asks for when signals come. -/
def heed (r : Runner) (p : Job) : Job :=
  p.pending.foldl (fun p s =>
    if p.leaving.isSome then p
    else
      let q := r.script p ((p.trap? s).getD [])
      if q.leaving.isSome then q else { q with status := p.status }) { p with pending := [] }

/-- With `-e`, a failure that nobody looks at ends the script. -/
def checked (p : Job) : Job :=
  if p.status != 0 && !p.guarded && p.hasOption 'e' && p.leaving.isNone then p.leave p.status else p

/-- Goes on with the number that a command may be given; anything else ends the script. -/
def withNumber (p : Job) (name : String) (ws : List String) (default : Nat) (f : Nat → Job) : Job :=
  match ws with
  | [] => f default
  | w :: _ => match Text.digits? 10 w.toList with
    | some n => f n
    | none => p.fail (name ++ ": Illegal number: " ++ w)

/-- An assignment as a word of a command. -/
def assignWord (p : Job) (w : String) : Job :=
  match assigned? w.toList with
  | some (name, value) => p.assign name value
  | none => p

def setOption (p : Job) (on : Bool) (c : Char) : Job :=
  let others := p.options.filter (· != c)
  { p with options := if on then c :: others else others }

/-- The letters of options that have a name. -/
def optionNames : List (String × Char) :=
  [("errexit", 'e'), ("nounset", 'u'), ("noglob", 'f'), ("xtrace", 'x'), ("verbose", 'v')]

def setOptions : Job → List String → Job
  | p, [] => p.done true
  | p, "--" :: rest => (p.setArgs (rest.map String.toList)).done true
  | p, "-o" :: name :: rest => setOptions ((optionNames.lookup name).elim p (setOption p true)) rest
  | p, "+o" :: name :: rest => setOptions ((optionNames.lookup name).elim p (setOption p false)) rest
  | p, w :: rest =>
    match w.toList with
    | '-' :: c :: cs => setOptions ((c :: cs).foldl (setOption · true) p) rest
    | '+' :: c :: cs => setOptions ((c :: cs).foldl (setOption · false) p) rest
    | _ => (p.setArgs ((w :: rest).map String.toList)).done true

def isBlank (c : Char) : Bool := c == ' ' || c == '\t' || c == '\n'

/-- The words of a line, the last name taking all that is left. -/
def spread (ifs : List Char) (p : Job) : List String → List Char → Job
  | [], _ => p
  | [name], s =>
    let s := s.dropWhile fun c => ifs.contains c && isBlank c
    p.assign name.toList (s.reverse.dropWhile fun c => ifs.contains c && isBlank c).reverse
  | name :: rest, s =>
    let s := s.dropWhile fun c => ifs.contains c && isBlank c
    let word := s.takeWhile (!ifs.contains ·)
    let after := s.drop word.length
    let after := if after.head?.any isBlank then after.dropWhile fun c => ifs.contains c && isBlank c else after.drop 1
    spread ifs (p.assign name.toList word) rest after

/-- Without a plain reading, a backslash takes its meaning from the next character. -/
def unescape : List Char → List Char
  | '\\' :: c :: r => c :: unescape r
  | c :: r => c :: unescape r
  | [] => []

def readLine (p : Job) (ws : List String) : Job :=
  let (os, names) := Utility.options "p" ws
  let line := p.input.takeWhile (· != '\n')
  let ended := line.length != p.input.length
  let p := { p with input := p.input.drop (line.length + 1) }
  let line := if (os.lookup 'r').isSome then line else unescape line
  (spread (Expansion.separators p) p (if names.isEmpty then ["REPLY"] else names) line).done ended

def nameOf (w : String) : List Char := w.toList.takeWhile isNameChar

/-- Names get values or, without, are only known to programs or protected. -/
def declare (p : Job) (ws : List String) (f : Job → List Char → Job) : Job :=
  let ws := ws.filter fun w => w.toList.head? != some '-'
  (ws.foldl (fun p w => if p.leaving.isSome then p else f (assignWord p w) (nameOf w)) p).done true

def export_ (p : Job) (ws : List String) : Job :=
  let named := ws.filter fun w => w.toList.head? != some '-'
  if named.isEmpty then
    p.say (p.environment.flatMap fun v =>
      "export ".toList ++ v.1 ++ "=\x27".toList ++ v.2 ++ "\x27\n".toList)
  else declare p ws fun p name => { p with exported := name :: p.exported }

def protect (p : Job) (ws : List String) : Job :=
  declare p ws fun p name => { p with fixed := name :: p.fixed }

/-- A function's own values; those outside come back later. -/
def declareOwn (p : Job) (ws : List String) : Job :=
  if p.calls == 0 then p.fail "local: not in a function"
  else declare (ws.foldl (fun p w =>
    { p with locals := (nameOf w, p.values.lookup (nameOf w)) :: p.locals }) p) ws fun p _ => p

def forget (p : Job) (ws : List String) : Job :=
  let (os, names) := Utility.options "" ws
  names.foldl (fun p w =>
    let name := w.toList
    if p.leaving.isSome then p
    else if (os.lookup 'f').isSome then { p with functions := p.functions.filter (·.1 != name) }
    else if p.fixed.contains name then p.fail ("unset: " ++ w ++ ": is read only")
    else { p.dropValue name with
      exported := p.exported.filter (· != name)
      functions := if (os.lookup 'v').isSome then p.functions else p.functions.filter (·.1 != name) })
    (p.done true)

/-- Waits for processes in the background; the last one's end is the result. -/
def waitFor (p : Job) (ws : List String) : Job :=
  let pids := ws.filterMap fun w => Text.digits? 10 w.toList
  if ws.isEmpty then (p.advance ((p.children.map (·.ends)).foldl max p.now)).done true
  else pids.foldl (fun p pid =>
    match p.children.find? (·.pid == pid) with
    | some c => { p.advance c.ends with status := c.status % 256 }
    | none => { p with status := 127 }) (p.done true)

/-- Commands of the shell's own: those that end a script where they fail, and the others. -/
def specialNames : List String :=
  [".", ":", "break", "continue", "eval", "exec", "exit", "export", "readonly", "return", "set",
    "shift", "times", "trap", "unset"]

def builtInNames : List String :=
  ["[", "alias", "bg", "cd", "command", "echo", "false", "fg", "getopts", "hash", "jobs", "kill",
    "local", "printf", "pwd", "read", "test", "true", "type", "ulimit", "umask", "unalias", "wait"]

def keywords : List String :=
  ["!", "case", "do", "done", "elif", "else", "esac", "fi", "for", "if", "in", "then", "until",
    "while", "\x7b", "\x7d"]

/-- What a name stands for in front of a command: a short answer, and a long one. -/
def kindOf? (p : Job) (name : String) : Option (String × String) :=
  if keywords.contains name then some (name, name ++ " is a shell keyword")
  else if (p.functions.lookup name.toList).isSome then some (name, name ++ " is a shell function")
  else if specialNames.contains name then some (name, name ++ " is a special shell builtin")
  else if builtInNames.contains name then some (name, name ++ " is a shell builtin")
  else (Utility.installed? p name).map fun path => (path, name ++ " is " ++ path)

def describe (p : Job) (short : Bool) (ws : List String) : Job :=
  ws.foldl (fun p w =>
    match kindOf? p w with
    | some (s, l) => p.emit ((if short then s else l).toList ++ ['\n'])
    | none =>
      let p := if short then p else p.emit (w.toList ++ ": not found\n".toList)
      { p with status := 127 }) (p.done true)

/-- Says what is done about signals, or changes it. -/
def trapping (p : Job) (ws : List String) : Job :=
  match (if ws.head? == some "--" then ws.drop 1 else ws) with
  | [] => p.say (p.traps.reverse.flatMap fun t =>
    "trap -- \x27".toList ++ t.2 ++ "\x27 ".toList ++ t.1.name.toList ++ ['\n'])
  | [w] => match Signal.ofText? w with
    | some s => (p.dropTrap s).done true
    | none => p.done true
  | script :: names => names.foldl (fun p w =>
    match Signal.ofText? w with
    | some s => if script == "-" then p.dropTrap s else p.setTrap s script.toList
    | none => p.refuse 1 ("trap: " ++ w ++ ": bad trap")) (p.done true)

/-- A function has arguments of its own, and loops outside do not end with it. -/
def callFunction (r : Runner) (p : Job) (body : Command) (ws : List String) : Job :=
  let q := r.command
    { p with args := ws.map String.toList, locals := [], loops := 0, calls := p.calls + 1 } body
  let q := q.locals.foldl (fun q v => v.2.elim (q.dropValue v.1) (q.setValue v.1)) q
  { q with
    args := p.args
    locals := p.locals
    loops := p.loops
    calls := p.calls
    leaving := if q.leaving == some .function then none else q.leaving }

/-- A shell that is called as a program. -/
def shell (r : Runner) (p : Job) (name : String) (ws : List String) : Job :=
  let flags := ws.takeWhile fun w => w.toList.head? == some '-' && w.length != 1 && w != "--"
  let letters := (flags.flatMap fun w => w.toList.drop 1)
  let rest := ws.drop flags.length
  let options := letters.filter (· != 'c')
  if letters.contains 'c' then
    match rest with
    | [] => p.refuse 2 "-c requires an argument"
    | script :: ws => r.apart p fun p =>
      r.script (fresh options (ws.headD name) (ws.drop 1) p) script.toList
  else match rest with
    | [] => r.apart p fun p => r.script (fresh options name [] { p with input := [] }) p.input
    | path :: ws => match p.read path with
      | .ok script => r.apart p fun p => r.script (fresh options path ws p) script
      | .error _ => p.refuse 2 ("cannot open " ++ path ++ ": No such file")
where
  /-- Nothing but what programs get to see is left of the values. -/
  fresh (options : List Char) (name : String) (args : List String) (p : Job) : Job :=
    { { p with
        name
        args := args.map String.toList
        functions := []
        locals := []
        fixed := []
        loops := 0
        calls := 0
        leaving := none
        options }.withEnvironment p.environment with args := args.map String.toList }

def isShell (name : String) : Bool := ["sh", "dash", "bash"].contains name

/-- Runs a program's file, or the interpreter of a script. -/
def callProgram (r : Runner) (p : Job) (path : String) (ws : List String) : Job :=
  let programs : Daemon.Programs := {
    files := p.tree
    executable := p.executable
    searchPath := Path.searchList (String.ofList ((p.value? "PATH".toList).getD []))
    workDir := p.workDir }
  match programs.find path ws with
  | .ok image =>
    let name := image.place.getLast?.getD ""
    if isShell name then shell r p name image.words
    else match utility? name with
      | some f => f p image.words
      | none => p.done true
  | .error .badFormat => shell r p path (path :: ws)
  | .error .permissionDenied => p.refuse 126 (path ++ ": Permission denied")
  | .error _ => p.refuse 127 (path ++ ": not found")

/-- The words of a text, of which quotes keep blanks together. -/
def quotedWords : Option Char → Option (List Char) → List Char → List String
  | _, current, [] => (current.map String.ofList).toList
  | some q, current, c :: r =>
    if c == q then quotedWords none current r else quotedWords (some q) (some (current.getD [] ++ [c])) r
  | none, current, c :: r =>
    if isBlank c then (current.map String.ofList).toList ++ quotedWords none none r
    else if c == '\x27' || c == '\x22' then quotedWords (some c) (some (current.getD [])) r
    else quotedWords none (some (current.getD [] ++ [c])) r

/-- So many members at a time. -/
def portions (size : Nat) : Nat → List String → List (List String)
  | 0, _ => []
  | n + 1, ws => if ws.isEmpty then [] else ws.take size :: portions size n (ws.drop size)

/-- Words and lines in the places of others. -/
structure Spreading where
  /-- What a line is put in for; without it, words come behind the command's own. -/
  mark : Option String := none
  /-- How many words a call takes. -/
  size : Option Nat := none
  onlySome : Bool := false
  command : List String := []

def Spreading.ofWords : Nat → Spreading → List String → Spreading
  | 0, x, _ => x
  | n + 1, x, ws =>
    match ws with
    | "-I" :: mark :: ws => ofWords n { x with mark := some mark } ws
    | "-n" :: k :: ws => ofWords n { x with size := Text.digits? 10 k.toList } ws
    | "-r" :: ws => ofWords n { x with onlySome := true } ws
    | w :: rest =>
      if w.startsWith "-I" then ofWords n { x with mark := some (String.ofList (w.toList.drop 2)) } rest
      else if w.startsWith "-n" then ofWords n { x with size := Text.digits? 10 (w.toList.drop 2) } rest
      else { x with command := ws }
    | [] => x

/-- The calls that an input leads to. -/
def Spreading.calls (x : Spreading) (s : List Char) : List (List String) :=
  let command := if x.command.isEmpty then ["echo"] else x.command
  match x.mark with
  | some mark => ((Filters.linesOf s).map fun l => String.ofList (l.dropWhile isGap)).map fun l =>
    command.map fun w => w.replace mark l
  | none =>
    let ws := quotedWords none none s
    if ws.isEmpty then if x.onlySome then [] else [command]
    else (portions (max 1 (x.size.getD ws.length)) (ws.length + 1) ws).map (command ++ ·)

/-- Calls a function, a command of the shell or a program by its name. The first argument bounds
how often a command passes on to another. -/
def call (r : Runner) : Nat → Job → String → List String → Job
  | 0, p, _, _ => p.leave 2
  | n + 1, p, name, ws =>
    let pass (p : Job) (ws : List String) : Job :=
      match ws with
      | [] => p.done true
      | w :: ws => call r n p w ws
    match p.functions.lookup name.toList with
    | some body => callFunction r p body ws
    | none =>
      match name with
      | "exit" => withNumber p name ws p.status p.leave
      | "return" => withNumber p name ws p.status fun k => { p with status := k, leaving := some .function }
      | "break" | "continue" => withNumber p name ws 1 fun k =>
        if k == 0 then p.fail (name ++ ": Illegal number: 0")
        else if p.loops == 0 then p.done true
        else
          let k := min k p.loops
          { p.done true with leaving := some (if name == "break" then .loops k else .round k) }
      | "set" => setOptions p ws
      | "shift" => withNumber p name ws 1 fun k =>
        if k ≤ p.args.length then (p.setArgs (p.args.drop k)).done true
        else p.fail "shift: can\x27t shift that many"
      | "export" => export_ p ws
      | "readonly" => protect p ws
      | "local" => declareOwn p ws
      | "unset" => forget p ws
      | "eval" => r.script p (" ".intercalate ws).toList
      | "." =>
        match p.read (ws.headD "") with
        | .ok script =>
          let q := r.script p script
          { q with leaving := if q.leaving == some .function then none else q.leaving }
        | .error _ => p.fail (".: " ++ ws.headD "" ++ ": not found")
      | "exec" =>
        if ws.isEmpty then { p.done true with keepsSinks := true }
        else
          let q := pass { p with traps := [] } ws
          q.leave q.status
      | "command" =>
        match ws with
        | "-v" :: ws => describe p true ws
        | "-V" :: ws => describe p false ws
        | "-p" :: ws | ws => pass { p with functions := [] } ws |> fun q => { q with functions := p.functions }
      | "type" => describe p false ws
      | "nohup" | "setsid" => pass p ws
      | "timeout" | "nice" => pass p (ws.drop 1)
      | "env" =>
        let clear := ws.head? == some "-i" || ws.head? == some "-"
        let ws := if clear then ws.drop 1 else ws
        let sets := ws.takeWhile fun w => (assigned? w.toList).isSome
        let q := if clear then { p with exported := [] } else p
        let q := sets.foldl (fun q w => { assignWord q w with exported := nameOf w :: q.exported }) q
        let q := if sets.length == ws.length then q.say q.environmentText
          else r.apart q fun q => pass { q with functions := [] } (ws.drop sets.length)
        p.inherit_ q
      | "xargs" =>
        let x := Spreading.ofWords (ws.length + 1) {} ws
        let q := (x.calls p.input).foldl (fun q ws =>
          let before := q.status
          let q := r.apart q fun q => pass { q with functions := [] } ws
          if q.status == 0 then { q with status := before } else { q with status := 123 })
          { p.done true with input := [] }
        { q with input := [] }
      | "trap" => trapping p ws
      | "kill" => r.heed (Utility.kill p ws)
      | "read" => readLine p ws
      | "wait" => waitFor p ws
      | "umask" => if ws.isEmpty then p.say "0022\n".toList else p.done true
      | "times" | "ulimit" | "hash" | "jobs" => p.done true
      | "getopts" =>
        match ws with
        | expected :: name :: args =>
          readOption p expected.toList name.toList (if args.isEmpty then p.args else args.map String.toList)
        | _ => p.refuse 2 "getopts: Usage: getopts optstring var [arg]"
      | _ =>
        if isShell name then shell r p name ws
        else match if name.toList.contains '/' then none else utility? name with
          | some f => f p ws
          | none => callProgram r p name ws

/-- Connects a stream; `none` where that cannot be. -/
def connect (r : Runner) (p : Job) : Redirect → Option Job
  | .read stream path =>
    let (p, path) := valueOf r.inner p path
    match p.read (String.ofList path) with
    | .ok s => some (if stream == 0 then { p with input := s } else p)
    | .error _ => none
  | .write stream append path =>
    let (p, path) := valueOf r.inner p path
    let path := String.ofList path
    if path == "/dev/stdout" then some (p.connect stream (p.sink 1))
    else if path == "/dev/stderr" then some (p.connect stream (p.sink 2))
    else do
      let place ← (p.tree.locate (p.rooted path)).toOption
      match p.tree.get? place with
      | some .device => some (p.connect stream .nothing)
      | some (.file _) =>
        if append then some (p.connect stream (.file place))
        else do
          let p ← (p.change (·.write place [])).toOption
          some (p.connect stream (.file place))
      | _ => do
        let p ← (p.change (·.write place [])).toOption
        some (p.connect stream (.file place))
  | .copy stream source =>
    let (p, source) := valueOf r.inner p source
    if source == ['-'] then some (p.connect stream .nothing)
    else (Text.digits? 10 source).map fun n => p.connect stream (p.sink n)
  | .text stream body =>
    let (p, s) := valueOf r.inner p body
    some (if stream == 0 then { p with input := s } else p)

/-- Runs something with its streams connected. A connection that fails is complained of. -/
def connected (r : Runner) (p : Job) (files : List Redirect) (f : Job → Job) : Job :=
  let start := files.foldl (fun (q : Option Job) x => q.bind fun q => r.connect q x) (some p)
  match start with
  | none => checked (p.refuse 2 "cannot open file")
  | some q =>
    let q := f q
    if q.keepsSinks then { q with keepsSinks := false }
    else { q with sinks := p.sinks, input := if files.any feeds then p.input else q.input }
where
  /-- Whether the input is another one. -/
  feeds : Redirect → Bool
    | .read stream _ | .text stream _ => stream == 0
    | _ => false

/-- How deep commands may pass on to others. -/
def callDepth : Nat := 100

/-- An assignment in front of a command holds for it alone, but without a command it stays. -/
def simple (r : Runner) (p : Job) (sets : List (List Char × Word)) (words : List Word) : Job :=
  let (p, fields) := allFieldsOf r.inner { p with innerStatus := none } words
  if p.leaving.isSome then p
  else
    let put (p : Job) : Job := sets.foldl (fun p s =>
      let (p, v) := valueOf r.inner p s.2
      p.assign s.1 v) p
    match fields with
    | [] =>
      let p := put p
      if p.leaving.isSome then p else checked { p with status := p.innerStatus.getD 0 }
    | name :: ws =>
      if sets.isEmpty then checked (r.call callDepth p name ws)
      else
        let q := put p
        let q := if q.leaving.isSome then q
          else r.call callDepth { q with exported := sets.map (·.1) ++ q.exported } name ws
        checked { q with exported := p.exported, values :=
          (sets.foldl (fun (q : Job) s => (p.values.lookup s.1).elim (q.dropValue s.1) (q.setValue s.1)) q).values }

/-- The parts of a pipe are processes of their own, each reading what the one before it says. -/
def pipe (r : Runner) (p : Job) : List Command → Job
  | [] => p
  | [c] => r.apart p fun p => r.command p c
  | c :: cs =>
    let (p, s) := r.capture p fun p => r.command p c
    let input := p.input
    { pipe r { p with input := s } cs with input }

/-- A process in the background finds the files as they are now; what it changes later is changed
when that time has come. It begins when the script has done what takes no time. -/
def background (r : Runner) (p : Job) (c : Command) : Job :=
  let pid := p.nextPid
  let q := r.atEnd (r.command
    { p with now := p.now + 1, edits := [], ahead := [], input := [], traps := [] } c)
  let later := (q.edits.reverse ++ q.ahead).map fun e => { e with owner := pid }
  let ahead := (p.ahead ++ later).mergeSort fun a b => decide (a.at_ ≤ b.at_)
  { p with
    ahead
    written := q.written
    children := ⟨pid, q.now, q.status⟩ :: p.children
    status := 0 }.catchUp p.now

/-- The arm that a text chooses. -/
def choose (r : Runner) (p : Job) (s : List Char) : List (List Word × Command) → Job
  | [] => { p with status := 0 }
  | (ws, c) :: arms =>
    let (p, fit) := ws.foldl (fun (p, fit) w =>
      if fit then (p, fit)
      else
        let (p, signs) := patternOf r.inner p w
        (p, fits signs s)) (p, false)
    if fit then r.command { p with status := 0 } c else choose r p s arms

/-- Runs something whose failure is looked at. -/
def looking (p : Job) (f : Job → Job) : Job :=
  { f { p with guarded := true } with guarded := p.guarded }

/-- The end of a loop's round, and whether the loop ends with it. -/
def endRound (p : Job) : Job × Bool :=
  match p.leaving with
  | none => (p, false)
  | some (.round k) =>
    if k ≤ 1 then ({ p with leaving := none }, false) else ({ p with leaving := some (.round (k - 1)) }, true)
  | some (.loops k) => ({ p with leaving := if k ≤ 1 then none else some (.loops (k - 1)) }, true)
  | some _ => (p, true)

def eachOf (r : Runner) (name : List Char) (body : Command) (p : Job) : List (List Char) → Job
  | [] => p
  | v :: vs =>
    let p := p.assign name v
    if p.leaving.isSome then p
    else
      let (p, ends) := endRound (r.command p body)
      if ends then p else eachOf r name body p vs

/-- No script is followed for longer, in nanoseconds. -/
def patience : Nat := 3600000000000

mutual

/-- Runs one command. The first argument bounds the depth, and the rounds of loops. -/
def exec : Nat → Job → Command → Job
  | 0, p, _ => p.leave 2
  | n + 1, p, c =>
    let r : Runner := ⟨exec n, follow n⟩
    if p.leaving.isSome || p.hasOption 'n' then p
    else match c with
    | .simple sets words => r.simple p sets words
    | .redirected c files => r.connected p files fun p => exec n p c
    | .sequence l => l.foldl (exec n) p
    | .pipe parts => checked (r.pipe p parts)
    | .negated c =>
      let q := looking p fun p => exec n p c
      if q.leaving.isSome then q else { q with status := if q.status == 0 then 1 else 0 }
    | .both a b =>
      let q := looking p fun p => exec n p a
      if q.leaving.isSome || q.status != 0 then q else exec n q b
    | .either a b =>
      let q := looking p fun p => exec n p a
      if q.leaving.isSome || q.status == 0 then q else exec n q b
    | .background c => r.background p c
    | .subshell c => checked (r.apart p fun p => exec n p c)
    | .branch test yes no =>
      let q := looking p fun p => exec n p test
      if q.leaving.isSome then q
      else if q.status == 0 then exec n q yes
      else exec n { q with status := 0 } no
    | .loop whileFails test body =>
      { rounds n { p with status := 0, loops := p.loops + 1 } whileFails test body with loops := p.loops }
    | .each name words body =>
      let (p, values) : Job × List (List Char) := match words with
        | some ws =>
          let (p, fields) := allFieldsOf r.inner p ws
          (p, fields.map String.toList)
        | none => (p, p.args)
      if p.leaving.isSome then p
      else { r.eachOf name body { p with status := 0, loops := p.loops + 1 } values with loops := p.loops }
    | .choose subject arms =>
      let (p, s) := valueOf r.inner p subject
      r.choose p s arms
    | .define name body =>
      { p with functions := (name, body) :: p.functions.filter (·.1 != name), status := 0 }

/-- A loop's rounds, while its test comes to what is asked for. -/
def rounds : Nat → Job → Bool → Command → Command → Job
  | 0, p, _, _, _ => p.leave 2
  | n + 1, p, whileFails, test, body =>
    let last := p.status
    let (q, ends) := endRound (looking p fun p => exec n p test)
    if ends || patience < q.now then q
    else if (q.status == 0) == whileFails then { q with status := last }
    else
      let (q, ends) := endRound (exec n q body)
      if ends then q else rounds n q whileFails test body

def follow : Nat → Job → List Char → Job
  | 0, p, _ => p.leave 2
  | n + 1, p, s =>
    let (cs, failed) := commands s
    let p := cs.foldl (exec n) { p with status := 0 }
    if failed && p.leaving.isNone then p.fail "Syntax error" else p

end

/-- The depth of commands within commands, with the rounds of loops. -/
def limit : Nat := 5000

def runner : Runner := ⟨exec limit, follow limit⟩

end Runner

namespace Job

/-- What was to be done at the end is done, and what others do later comes about. -/
def finish (p : Job) : Job :=
  let q := Runner.runner.atEnd p
  { q.catchUp Runner.patience with now := q.now }

/-- Runs a script to its end. -/
def run (p : Job) (script : List Char) : Job := (Runner.runner.script p script).finish

/-- Runs a program with the words behind its name. -/
def start (p : Job) (program : String) (words : List String) : Job :=
  (Runner.runner.call Runner.callDepth p program words).finish

end Job

end Vigil.Script
