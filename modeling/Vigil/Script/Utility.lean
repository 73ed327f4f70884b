import Vigil.Script.Calculation
import Vigil.Script.LineEditor
import Vigil.Script.Options
import Vigil.Script.Printing
/-! The commands that a script can call, but for those that run other commands. -/
namespace Vigil.Script

open Files (Place Tree FileError)

namespace Utility

/-- The options of one word: those with their values, and one whose value is the next word. A
number stands for itself. -/
def cluster (valued : List Char) : List Char → List (Char × List Char) × Option Char
  | [] => ([], none)
  | c :: r =>
    if valued.contains c then if r.isEmpty then ([], some c) else ([(c, r)], none)
    else if c.isDigit then ([('n', c :: r)], none)
    else
      let (os, left) := cluster valued r
      ((c, []) :: os, left)

/-- Options in front, with the values of those that take one, and the words behind them. -/
def optionsOf (valued : List Char) : Nat → List String → List (Char × List Char) × List String
  | 0, ws => ([], ws)
  | _, [] => ([], [])
  | n + 1, w :: rest =>
    match w.toList with
    | ['-', '-'] => ([], rest)
    | '-' :: c :: r =>
      let (os, left) := cluster valued (c :: r)
      let own := left.toList.map fun c => (c, (rest.headD "").toList)
      let (more, ws) := optionsOf valued n (if left.isSome then rest.drop 1 else rest)
      (os ++ own ++ more, ws)
    | _ => ([], w :: rest)

def options (valued : String) (ws : List String) : List (Char × List Char) × List String :=
  optionsOf valued.toList (ws.length + 1) ws

def letters (os : List (Char × List Char)) : List Char := os.map (·.1)

/-- Seconds with a fraction and a unit, in nanoseconds. -/
def nanos (s : List Char) : Nat :=
  let unit := match s.getLast? with
    | some 'm' => 60
    | some 'h' => 3600
    | some 'd' => 86400
    | _ => 1
  let s := s.filter fun c => c.isDigit || c == '.'
  let fraction := (s.dropWhile (· != '.')).drop 1
  let digits := (fraction ++ List.replicate 9 '0').take 9
  unit * ((Text.digits? 10 (s.takeWhile (· != '.'))).getD 0 * 1000000000 +
    (Text.digits? 10 digits).getD 0)

/-- The texts of files, or the input where none is named; those that cannot be read are complained
of. -/
def inputs (p : Job) (name : String) (paths : List String) : Job × List (List Char) × Bool :=
  if paths.isEmpty then ({ p with input := [] }, [p.input], true)
  else paths.foldl (fun (p, texts, ok) path =>
    if path == "-" then ({ p with input := [] }, texts ++ [p.input], ok)
    else match p.read path with
      | .ok s => (p, texts ++ [s], ok)
      | .error e => (p.complain 1 (name ++ ": " ++ path ++ ": " ++ e.message), texts, false)) (p, [], true)

/-- A command that turns the lines of its input into others. -/
def filter (p : Job) (name : String) (paths : List String)
    (f : List (List Char) → List (List Char)) : Job :=
  let (p, texts, ok) := inputs p name paths
  (p.emit (Filters.unlines (f (Filters.linesOf texts.flatten)))).done ok

/-- Changes the files once for each word; one change that fails is complained of. -/
def each (p : Job) (lead : String) (paths : List String)
    (f : Tree → String → Except FileError Tree) : Job :=
  paths.foldl (fun p path =>
    match p.change fun t => f t (p.rooted path) with
    | .ok q => q
    | .error e => p.complain 1 (lead ++ " \x27" ++ path ++ "\x27: " ++ e.message)) (p.done true)

def removeFile (force recursive : Bool) (t : Tree) (path : String) : Except FileError Tree := do
  match t.spot path with
  | .error e => if force && e == .notFound then .ok t else .error e
  | .ok (_, none) => .error .invalidInput
  | .ok (dir, some name) =>
    let place := dir ++ [name]
    match t.get? place with
    | none => if force then .ok t else .error .notFound
    | some .dir =>
      if recursive then .ok ⟨t.entries.filter fun e => !place.isPrefixOf e.1⟩ else .error .isADirectory
    | some _ => .ok (t.erase place)

def removeDir (t : Tree) (path : String) : Except FileError Tree := do
  match ← t.find path with
  | (place, .dir) =>
    if t.entries.any fun e => place.isPrefixOf e.1 && e.1 != place then .error .alreadyExists
    else .ok (t.erase place)
  | _ => .error .notADirectory

/-- The path that a file gets when it goes to `target`: below it, where that is a directory. -/
def landing (p : Job) (source target : String) : String :=
  if p.tree.isDirectory (p.rooted target) then
    Path.join target (((Path.names source).getLast?).getD "")
  else target

/-- Moves a file or a directory with all below it. -/
def move (t : Tree) (source target : String) : Except FileError Tree := do
  match ← t.find source with
  | (old, .dir) =>
    match ← t.spot target with
    | (dir, some name) =>
      let new := dir ++ [name]
      if (t.get? new).isSome then .error .alreadyExists
      else .ok ⟨t.entries.map fun e =>
        if old.isPrefixOf e.1 then (new ++ e.1.drop old.length, e.2) else e⟩
    | _ => .error .alreadyExists
  | _ => t.moveFile source target

def carry (p : Job) (name : String) (paths : List String)
    (f : Tree → String → String → Except FileError Tree) : Job :=
  match paths.getLast? with
  | none => p.complain 1 (name ++ ": missing file operand")
  | some target =>
    each p (name ++ ": cannot stat") paths.dropLast fun t source =>
      f t source (p.rooted (landing p source target))

def listing (p : Job) (all : Bool) (path : String) : Except FileError (List String) := do
  match ← p.tree.find (p.rooted path) with
  | (place, .dir) => .ok ((p.namesIn place).filter fun n => all || n.toList.head? != some '.')
  | _ => .ok [path]

/-- The numbers from the first to the last, each a step from the one before. -/
def numbers (first step last : Int) : List Int :=
  let count := if 0 < step then (last - first) / step + 1 else if step < 0 then (first - last) / (-step) + 1 else 0
  (List.range (min count.toNat 100000)).map fun (k : Nat) => first + step * (k : Int)

/-- Without its directories, and without an ending that is not all of it. -/
def baseName (path ending : String) : String :=
  let name := ((Path.words path).getLast?).getD (if path.isEmpty then "" else "/")
  if !ending.isEmpty && name != ending && name.endsWith ending then
    String.ofList (name.toList.take (name.length - ending.length))
  else name

def dirName (path : String) : String :=
  let name := path.toList.reverse.dropWhile (· == '/')
  let cs := name.dropWhile (· != '/')
  let dir := (cs.dropWhile (· == '/')).reverse
  if dir.isEmpty then (if cs.isEmpty && (path.isEmpty || !name.isEmpty) then "." else "/")
  else String.ofList dir

/-- A signal for a process. One that ends in the background changes nothing any more. -/
def send (p : Job) (s : Signal) (pid : Nat) : Job :=
  if pid == p.pid then
    match if s.isFinal then none else p.trap? s with
    | some script => if script.isEmpty then p.done true else { p.done true with pending := p.pending ++ [s] }
    | none => if s.isHarmless then p.done true else p.leave s.status
  else match p.children.find? (·.pid == pid) with
    | some c =>
      if c.ends ≤ p.now then p.done false
      else if s.isHarmless then p.done true
      else { p with
        children := p.children.map fun (c : Child) =>
          if c.pid == pid then ⟨pid, p.now, s.status⟩ else c
        ahead := p.ahead.filter (·.owner != pid) }.done true
    | none => p.refuse 1 "kill: No such process"

def kill (p : Job) (ws : List String) : Job :=
  let (name, pids) := match ws with
    | "-s" :: s :: rest => (s, rest)
    | "--" :: rest => ("TERM", rest)
    | w :: rest => if w.toList.head? == some '-' then (String.ofList (w.toList.drop 1), rest) else ("TERM", w :: rest)
    | [] => ("TERM", [])
  if name == "l" then
    match pids.mapM (Signal.ofText? ·) with
    | some [] => p.say (("\n".intercalate ("0" :: (Signal.all.drop 1).map (·.name))).toList ++ ['\n'])
    | some ss => p.say ((ss.flatMap fun s => s.name.toList ++ ['\n']))
    | none => p.refuse 2 "kill: Illegal number"
  else match Signal.ofText? name with
    | none => p.refuse 2 ("kill: Illegal option -" ++ name)
    | some s => pids.foldl (fun p pid =>
      match Text.digits? 10 pid.toList with
      | some n => send p s n
      | none => p.refuse 2 ("kill: Illegal number: " ++ pid)) (p.done true)

/-- The directory is called by the words that led to it, without those that lead back. -/
def changeDir (p : Job) (path : String) : Job :=
  if path.isEmpty then p.done true
  else match p.tree.find (p.rooted path) with
    | .ok (_, .dir) =>
      let old := p.workDir.toList
      let names := (Path.words (p.rooted path)).foldl (fun (names : List String) w =>
        if w == "." then names else if w == ".." then names.dropLast else names ++ [w]) []
      let workDir := Path.ofNames names
      ((({ p with workDir }.setValue "OLDPWD".toList old).setValue "PWD".toList workDir.toList)).done true
    | _ => p.refuse 2 ("cd: can\x27t cd to " ++ path)

/-- A dash stands for the directory before, whose name is told then. -/
def enter (p : Job) (ws : List String) : Job :=
  let ws := ws.filter fun w => !(["-L", "-P", "--"].contains w)
  let value (name : String) : String := String.ofList ((p.value? name.toList).getD [])
  match ws with
  | ["-"] =>
    let p := changeDir p (value "OLDPWD")
    if p.status == 0 then p.say (p.workDir.toList ++ ['\n']) else p
  | w :: _ => changeDir p w
  | [] => changeDir p (value "HOME")

def wordCount (p : Job) (ws : List String) : Job :=
  let (os, paths) := options "" ws
  let asked := letters os
  let (p, texts, ok) := inputs p "wc" paths
  let rows := texts.map (Filters.counts asked)
  let columns := (rows.head?.map List.length).getD 1
  let size := (texts.map fun s => (Utf8.encode s).length).foldl (· + ·) 0
  let width := if paths.isEmpty then (if columns == 1 then 1 else 7)
    else if columns == 1 && paths.length == 1 then 1 else (Text.decimal size).length
  let line (ns : List Nat) (name : String) : List Char :=
    [' '].intercalate (ns.map (Filters.padded width)) ++
      (if name.isEmpty then [] else ' ' :: name.toList) ++ ['\n']
  let total := (List.range columns).map fun k => (rows.map fun r => (r[k]?).getD 0).foldl (· + ·) 0
  let lines := (rows.zip (if paths.isEmpty then [""] else paths)).flatMap fun x => line x.1 x.2
  (p.emit (lines ++ if 1 < paths.length then line total "total" else [])).done ok

def exchanging (p : Job) (ws : List String) : Job :=
  let (os, sets) := options "" ws
  let asked := letters os
  let set (k : Nat) : List Char := (sets[k]?).elim [] fun s => Filters.charSet (s.length + 1) s.toList
  let other := asked.contains 'c' || asked.contains 'C'
  let has (c : Char) : Bool := (set 0).contains c != other
  let s := p.input
  let s :=
    if asked.contains 'd' then s.filter (!has ·)
    else if sets.length < 2 then s
    else if other then s.map fun c => if has c then ((set 1).getLast?).getD c else c
    else Filters.exchange (set 0) (set 1) s
  let squeezed := if sets.length < 2 then (if other then (s.eraseDups.filter has) else set 0) else set 1
  { p with input := [] }.say (if asked.contains 's' then Filters.squeeze squeezed none s else s)

def cutting (p : Job) (ws : List String) : Job :=
  let (os, paths) := options "dfcb" ws
  let delimiter := ((os.lookup 'd').bind List.head?).getD '\t'
  match os.lookup 'f', (os.lookup 'c').or (os.lookup 'b') with
  | some list, _ =>
    filter p "cut" paths (Filters.cutFields delimiter ((Filters.ranges? list).getD []) (os.lookup 's').isSome)
  | none, some list =>
    filter p "cut" paths fun ls => ls.map (Filters.pick ((Filters.ranges? list).getD []))
  | none, none => p.complain 1 "cut: you must specify a list of bytes, characters, or fields"

/-- How lines are looked for, and what is told of those that are found. -/
structure Search where
  options : List Char
  accepts : List Char → Bool
  /-- The parts of a line that fit. -/
  parts : List Char → List (List Char)

def Search.ofPattern? (options pattern : List Char) : Option Search :=
  let has (c : Char) := options.contains c
  let lower (s : List Char) := if has 'i' || has 'y' then s.map Char.toLower else s
  let fixed (c : Char) : List Char := if c.isAlphanum || c == '_' then [c] else ['[', c, ']']
  let literally (c : Char) : List Char := if c == '^' || c == '\\' then ['\\', c] else fixed c
  let alternatives := Path.splitAt '\n' (lower pattern)
  (alternatives.mapM fun e =>
    if has 'F' then Regular.ofText? false (e.flatMap literally) else Regular.ofText? (has 'E') e).map fun es =>
    let fits (s : List Char) (e : Regular) : Bool :=
      if has 'x' then (e.all true s).any (·.rest.isEmpty)
      else if has 'w' then
        let (found, _) := e.findAll (s.length + 2) true true s
        (List.range found.length).any fun k =>
          let before := ((found.take k).flatMap fun f => f.before ++ f.fit) ++ ((found[k]?).elim [] (·.before))
          let fit := (found[k]?).elim [] (·.fit)
          let after := s.drop (before.length + fit.length)
          !(before.getLast?.any Regular.isWordChar) && !(after.head?.any Regular.isWordChar)
      else e.isIn s
    { options
      accepts := fun s => es.any (fits (lower s)) != has 'v'
      parts := fun s => match es with
        | e :: _ => ((e.findAll (s.length + 2) true true (lower s)).1.foldl (fun (at_, out) f =>
            let start := at_ + f.before.length
            (start + f.fit.length, out ++ [(s.drop start).take f.fit.length])) (0, [])).2.filter
              (!·.isEmpty)
        | [] => [] }

/-- What is told of one text, and whether anything was found. -/
def Search.report (q : Search) (name : Option String) (s : List Char) : List (List Char) × Bool :=
  let has (c : Char) := q.options.contains c
  let ls := Filters.linesOf s
  let found := (((List.range ls.length).zip ls).filter fun l => q.accepts l.2)
  let lead := name.elim [] fun n => n.toList ++ [':']
  let line (k : Nat) (s : List Char) : List Char :=
    lead ++ (if has 'n' then Text.decimal (k + 1) ++ [':'] else []) ++ s
  let out := if has 'q' then []
    else if has 'l' then if found.isEmpty then [] else [(name.getD "(standard input)").toList]
    else if has 'c' then [lead ++ Text.decimal found.length]
    else if has 'o' then found.flatMap fun l => (q.parts l.2).map (line l.1)
    else found.map fun l => line l.1 l.2
  (out, !found.isEmpty)

/-- The lines in which an expression fits, or what is asked of them. -/
def search (p : Job) (extra : List Char) (ws : List String) : Job :=
  let (os, ws) := options "em" ws
  let (pattern, paths) := match os.lookup 'e' with
    | some e => (e, ws)
    | none => ((ws.headD "").toList, ws.drop 1)
  match Search.ofPattern? (extra ++ letters os) pattern with
  | none => p.complain 2 "grep: bad expression"
  | some q =>
    let named : Bool := (1 < paths.length && !q.options.contains 'h') || q.options.contains 'H'
    let names := if named || q.options.contains 'l' then paths.map some else paths.map fun _ => none
    let (p, texts, ok) := inputs p "grep" paths
    let reports := (texts.zip (if paths.isEmpty then [none] else names)).map fun x => q.report x.2 x.1
    let p := p.emit (Filters.unlines (reports.flatMap (·.1)))
    { p with status := if !ok then 2 else if reports.any (·.2) then 0 else 1 }

/-- Changes lines by the rules of a script. -/
def editing (p : Job) (ws : List String) : Job :=
  let (os, ws) := options "ef" ws
  let scripts := (os.filter (·.1 == 'e')).map (·.2)
  let (script, paths) : List Char × List String :=
    if scripts.isEmpty then ((ws.headD "").toList, ws.drop 1) else (['\n'].intercalate scripts, ws)
  let asked := letters os
  match LineEditor.ofText? (asked.contains 'E' || asked.contains 'r') script with
  | none => p.complain 1 "sed: -e expression #1: unknown command"
  | some rules =>
    let (p, texts, ok) := inputs p "sed" paths
    let s := texts.flatten
    let out := Filters.unlines (LineEditor.edit (asked.contains 'n') rules (Filters.linesOf s))
    let out := if s.getLast?.any (· != '\n') then out.dropLast else out
    (p.emit out).done ok

/-- Numbers with zeros in front, all of the same width. -/
def leveled (ns : List Int) : List (List Char) :=
  let width := (ns.map fun n => (Text.decimalInt n).length).foldl max 0
  ns.map fun n =>
    if n < 0 then '-' :: Text.paddedDecimal (width - 1) n.natAbs else Text.paddedDecimal width n.natAbs

def sequence (p : Job) (ws : List String) : Job :=
  let level := ws.head? == some "-w"
  let ws := if level then ws.drop 1 else ws
  let (separator, ws) : String × List String := match ws with
    | "-s" :: s :: rest => (s, rest)
    | w :: rest => if w.startsWith "-s" then (String.ofList (w.toList.drop 2), rest) else ("\n", w :: rest)
    | [] => ("\n", [])
  let numbers? : Option (List Int) := match ws.mapM Test.integer? with
    | some [last] => some (numbers 1 1 last)
    | some [first, last] => some (numbers first 1 last)
    | some [first, step, last] => some (numbers first step last)
    | _ => none
  match numbers? with
  | some ns =>
    if ns.isEmpty then p.done true
    else
      let texts := if level then leveled ns else ns.map Text.decimalInt
      p.say (separator.toList.intercalate texts ++ ['\n'])
  | none => p.complain 1 "seq: invalid argument"

def linkTarget (p : Job) (ws : List String) : Job :=
  let (os, paths) := options "" ws
  match paths with
  | path :: _ =>
    if (letters os).contains 'f' || (letters os).contains 'e' then
      match p.processEntry? path, p.tree.locate (p.rooted path) with
      | none, .ok place => p.say ((Path.ofNames place).toList ++ ['\n'])
      | _, _ => match p.readLink path with
        | .ok s => p.say (s.toList ++ ['\n'])
        | .error _ => p.done false
    else match p.readLink path with
      | .ok s => p.say (s.toList ++ ['\n'])
      | .error _ => p.done false
  | [] => p.complain 1 "readlink: missing operand"

def echo (p : Job) (ws : List String) : Job :=
  let (newLine, ws) := match ws with
    | "-n" :: rest => (false, rest)
    | ws => (true, ws)
  let text := (" ".intercalate ws).toList
  let (s, ends) := Printing.escapes true (text.length + 1) text
  p.say (s ++ if newLine && !ends then ['\n'] else [])

def printf (p : Job) : List String → Job
  | [] => p.refuse 2 "printf: usage: printf format [arg ...]"
  | "--" :: pattern :: ws | pattern :: ws =>
    let (s, status) := Printing.format pattern.toList (ws.length + 1) (ws.map String.toList)
    { p.emit s with status }

def condition (p : Job) (ws : List String) : Job :=
  match Test.eval p ws with
  | some b => p.done b
  | none => p.refuse 2 "test: bad condition"

def makeDirs (p : Job) (ws : List String) : Job :=
  let (os, paths) := options "m" ws
  if (letters os).contains 'p' then
    each p "mkdir: cannot create directory" paths fun t path =>
      let a := t.ensureDirs (Path.names path).reverse
      a.result.map fun _ => a.tree
  else each p "mkdir: cannot create directory" paths fun t path => t.makeDir path

def list (p : Job) (ws : List String) : Job :=
  let (os, paths) := options "" ws
  let all := (letters os).contains 'a' || (letters os).contains 'A'
  let paths := if paths.isEmpty then ["."] else paths
  paths.foldl (fun p path =>
    match if (letters os).contains 'd' then (p.tree.find (p.rooted path)).map fun _ => [path]
      else listing p all path with
    | .ok names => p.emit (names.flatMap fun n => n.toList ++ ['\n'])
    | .error e => p.complain 2 ("ls: cannot access \x27" ++ path ++ "\x27: " ++ e.message)) (p.done true)

/-- The first program of a name on the search path. -/
def installed? (p : Job) (name : String) : Option String :=
  if name.toList.contains '/' then
    if p.tree.isFile (p.rooted name) then some name else none
  else
    let dirs := Path.searchList (String.ofList ((p.value? "PATH".toList).getD []))
    (dirs.map (Path.join · name)).find? fun path => p.tree.isFile (p.rooted path)

def which (p : Job) (ws : List String) : Job :=
  ws.foldl (fun p w =>
    match installed? p w with
    | some path => p.emit (path.toList ++ ['\n'])
    | none => p.done false) (p.done true)

/-- The lines of one text in one line each, or of all texts side by side. -/
def paste (p : Job) (ws : List String) : Job :=
  let (os, paths) := options "d" ws
  let delimiters := match os.lookup 'd' with
    | some ['\\', 'n'] => ['\n']
    | some ['\\', 't'] => ['\t']
    | some ['\\', '0'] => []
    | some d => d
    | none => ['\t']
  let (p, texts, ok) := inputs p "paste" (if paths.isEmpty then ["-"] else paths)
  let texts := texts.map Filters.linesOf
  let rows : List (List (List Char)) :=
    if (letters os).contains 's' then texts
    else (List.range ((texts.map List.length).foldl max 0)).map fun k =>
      texts.map fun ls => (ls[k]?).getD []
  (p.emit (Filters.unlines (rows.map (Filters.pasted delimiters 0)))).done ok

def concatenate (p : Job) (ws : List String) : Job :=
  let (os, paths) := options "" ws
  let (p, texts, ok) := inputs p "cat" paths
  let s := texts.flatten
  let asked := letters os
  let s := if asked.contains 'n' || asked.contains 'b' then
      let out := Filters.unlines (Filters.numbered (!asked.contains 'b') ['\t'] (Filters.linesOf s))
      if s.getLast?.any (· != '\n') then out.dropLast else out
    else s
  (p.emit s).done ok

/-- The first or the last lines, or bytes. -/
def ending (p : Job) (name : String) (ws : List String)
    (f : {α : Type} → List Char → List α → List α) : Job :=
  let (os, paths) := options "nc" ws
  match os.lookup 'c' with
  | some n =>
    let (p, texts, ok) := inputs p name paths
    (p.emit (Utf8.decodeLossy (f n (Utf8.encode texts.flatten)))).done ok
  | none =>
    let (p, texts, ok) := inputs p name paths
    let s := texts.flatten
    let out := Filters.unlines (f ((os.lookup 'n').getD ['1', '0']) (Filters.linesOf s))
    let cut : Bool := s.getLast?.any (· != '\n') && !out.isEmpty &&
      out.dropLast == s.drop (s.length - (out.length - 1))
    (p.emit (if cut then out.dropLast else out)).done ok

end Utility

open Utility

/-- What a command does; `none` where there is no such command. -/
def utility? (name : String) : Option (Job → List String → Job) :=
  match name with
  | ":" | "true" => some fun p _ => p.done true
  | "false" => some fun p _ => p.done false
  | "echo" => some echo
  | "printf" => some printf
  | "test" => some condition
  | "[" => some fun p ws =>
    if ws.getLast? == some "]" then condition p ws.dropLast else p.refuse 2 "[: missing ]"
  | "pwd" => some fun p _ => p.say (p.workDir.toList ++ ['\n'])
  | "cd" => some enter
  | "sleep" => some fun p ws =>
    (p.advance (ws.foldl (fun t w => t + nanos w.toList) p.now)).done true
  | "kill" => some kill
  | "cat" => some concatenate
  | "tee" => some fun p ws =>
    let (os, paths) := options "" ws
    let s := p.input
    let p := { p with input := [] }.emit s
    each p "tee:" paths fun t path =>
      if (letters os).contains 'a' then do t.append (← t.locate path) (Utf8.encode s)
      else t.writeAt path (Utf8.encode s)
  | "wc" => some wordCount
  | "head" => some fun p ws => ending p "head" ws Filters.head
  | "tail" => some fun p ws => ending p "tail" ws Filters.tail
  | "tac" => some fun p ws => filter p "tac" ws List.reverse
  | "nl" => some fun p ws => filter p "nl" (options "" ws).2 fun ls =>
    (Filters.numbered false ['\t'] ls).map fun l => if l.isEmpty then List.replicate 7 ' ' else l
  | "paste" => some paste
  | "fold" => some fun p ws =>
    let (os, paths) := options "w" ws
    let width := max 1 (((os.lookup 'w').or (os.lookup 'n')).bind (Text.digits? 10 ·) |>.getD 80)
    filter p "fold" paths fun ls => ls.flatMap fun l => Filters.folded width l.length l
  | "yes" => some fun p ws =>
    let line := (if ws.isEmpty then "y" else " ".intercalate ws).toList ++ ['\n']
    p.say (List.replicate 1000 line).flatten
  | "sed" => some editing
  | "which" => some which
  | "realpath" => some fun p ws => (ws.foldl (fun p w =>
    match p.tree.locate (p.rooted w) with
    | .ok place => p.emit ((Path.ofNames place).toList ++ ['\n'])
    | .error e => p.complain 1 ("realpath: " ++ w ++ ": " ++ e.message)) (p.done true))
  | "sort" => some fun p ws =>
    let (os, paths) := options "kt" ws
    let plain := (os.filter fun o => o.2.isEmpty).map (·.1)
    let separator := (os.lookup 't').bind List.head?
    let key := (os.lookup 'k').elim { options := plain, separator } (Filters.SortKey.ofText plain separator)
    filter p "sort" paths (Filters.sorted key)
  | "uniq" => some fun p ws =>
    let (os, paths) := options "" ws
    filter p "uniq" paths (Filters.uniq (letters os))
  | "rev" => some fun p ws => filter p "rev" ws fun ls => ls.map List.reverse
  | "tr" => some exchanging
  | "cut" => some cutting
  | "seq" => some sequence
  | "grep" => some fun p ws => search p [] ws
  | "egrep" => some fun p ws => search p ['E'] ws
  | "fgrep" => some fun p ws => search p ['F'] ws
  | "expr" => some fun p ws =>
    match Calculation.eval ws with
    | some s => (p.emit (s.toList ++ ['\n'])).done (!Calculation.isNull s)
    | none => p.complain 2 "expr: syntax error"
  | "basename" => some fun p ws => p.say ((baseName (ws.headD "") ((ws.drop 1).headD "")).toList ++ ['\n'])
  | "dirname" => some fun p ws => p.say ((dirName (ws.headD "")).toList ++ ['\n'])
  | "readlink" => some linkTarget
  | "mkdir" => some makeDirs
  | "rmdir" => some fun p ws => each p "rmdir: failed to remove" (options "" ws).2 removeDir
  | "touch" => some fun p ws => each p "touch: cannot touch" (options "" ws).2 fun t path =>
    if (t.find path).toOption.isSome then .ok t else t.writeAt path []
  | "rm" => some fun p ws =>
    let (os, paths) := options "" ws
    let has (c : Char) := (letters os).contains c
    each p "rm: cannot remove" paths (removeFile (has 'f') (has 'r' || has 'R'))
  | "mv" => some fun p ws => carry p "mv" (options "" ws).2 move
  | "cp" => some fun p ws => carry p "cp" (options "" ws).2 fun t source target => do
    t.writeAt target (← t.readAt source)
  | "ln" => some fun p ws =>
    match (options "" ws).2 with
    | [source, target] => each p "ln: failed to create symbolic link" [target] fun t path => do
      match ← t.spot path with
      | (dir, some name) =>
        if (t.get? (dir ++ [name])).isSome then .error .alreadyExists
        else .ok (t.put (dir ++ [name]) (.link source))
      | _ => .error .alreadyExists
    | _ => p.done false
  | "ls" => some list
  | "printenv" => some fun p ws =>
    if ws.isEmpty then p.say p.environmentText
    else match p.environment.lookup (ws.headD "").toList with
      | some v => p.say (v ++ ['\n'])
      | none => p.done false
  | "whoami" => some fun p _ => p.say "root\n".toList
  | "id" => some fun p ws => p.say (if ws.isEmpty then "uid=0(root) gid=0(root) groups=0(root)\n".toList else "0\n".toList)
  | "uname" => some fun p _ => p.say "Linux\n".toList
  | "tty" => some fun p _ => (p.emit "not a tty\n".toList).done false
  | "ps" => some fun p _ => p.say (Filters.padded 7 p.pid ++ ['\n'])
  | _ => none

end Vigil.Script
