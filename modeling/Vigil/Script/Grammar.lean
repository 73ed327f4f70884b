import Vigil.Script.Word
/-! The commands of a shell script. -/
namespace Vigil.Script

/-- What a stream of a command is connected with. -/
inductive Redirect where
  | read (stream : Nat) (path : Word)
  | write (stream : Nat) (append : Bool) (path : Word)
  | copy (stream : Nat) (source : Word)
  | text (stream : Nat) (body : Word)

inductive Command where
  | simple (sets : List (List Char × Word)) (words : List Word)
  | redirected (c : Command) (files : List Redirect)
  | pipe (parts : List Command)
  | negated (c : Command)
  | both (a b : Command)
  | either (a b : Command)
  | sequence (l : List Command)
  | background (c : Command)
  | subshell (c : Command)
  | branch (test yes no : Command)
  /-- Goes on as long as the test succeeds, or as long as it fails. -/
  | loop (whileFails : Bool) (test body : Command)
  /-- Without words the values are the arguments. -/
  | each (name : List Char) (words : Option (List Word)) (body : Command)
  | choose (subject : Word) (arms : List (List Word × Command))
  | define (name : List Char) (body : Command)

/-- Passes blanks, joined lines and comments. -/
def skipGaps : List Char → List Char
  | [] => []
  | '\\' :: '\n' :: r => skipGaps r
  | c :: r =>
    if isGap c then skipGaps r
    else if c == '#' then r.dropWhile (· != '\n')
    else c :: r

/-- Passes line ends too. -/
def skipLines : Nat → List Char → List Char
  | 0, s => s
  | n + 1, s =>
    match skipGaps s with
    | '\n' :: r => skipLines n r
    | s => s

/-- The characters up to the next operator: a command's keyword, if it is one. -/
def keyword (s : List Char) : List Char := s.takeWhile (!isOperator ·)

def isKeyword (w : String) (s : List Char) : Bool := keyword s == w.toList

/-- What stands behind a keyword that has to be there. -/
def expect? (w : String) (s : List Char) : Option (List Char) :=
  if isKeyword w s then some (s.drop w.length) else none

def expectChar? (c : Char) : List Char → Option (List Char)
  | d :: r => if c == d then some r else none
  | [] => none

/-- Keywords that end a list of commands. -/
def isClosing (s : List Char) : Bool :=
  [")", ";;"].any (fun w => w.toList.isPrefixOf s) ||
    ["then", "elif", "else", "fi", "do", "done", "esac", "\x7d"].any (isKeyword · s)

/-- The lines up to one that is `mark`, and the lines behind it. Tabs in front may be cut off. -/
def linesUntil (cutTabs : Bool) (mark : List Char) : Nat → List Char → List Char × List Char
  | 0, s => ([], s)
  | _ + 1, [] => ([], [])
  | n + 1, s =>
    let line := s.takeWhile (· != '\n')
    let r := s.drop (line.length + 1)
    let line := if cutTabs then line.dropWhile (· == '\t') else line
    if line == mark then ([], r)
    else
      let (body, r) := linesUntil cutTabs mark n r
      (line ++ '\n' :: body, r)

/-- A text from the lines below the one that `s` is the rest of; those lines are taken out. -/
def textBelow (cutTabs : Bool) (s : List Char) : Option (Word × List Char) := do
  let raw := keyword s
  let mark := raw.filter fun c => !(['\x22', '\x27', '\\'].contains c)
  if raw.isEmpty then none
  else
    let s := s.drop raw.length
    let line := s.takeWhile (· != '\n')
    let below := s.drop (line.length + 1)
    let (body, below) := linesUntil cutTabs mark (below.length + 1) below
    let word ←
      if mark.length != raw.length then some [Piece.text true body]
      else (pieces (body.length + 1) .body body).map (·.1)
    some (word, line ++ '\n' :: below)

/-- One connection of a stream, where there is one. -/
def redirect? (s : List Char) : Option (Option (Redirect × List Char)) :=
  let digits := s.takeWhile Char.isDigit
  let stream (default : Nat) := (Text.digits? 10 digits).getD default
  let word (s : List Char) (f : Word → Redirect) : Option (Option (Redirect × List Char)) := do
    let (w, r) ← pieces (s.length + 1) .bare (skipGaps s)
    if w.isEmpty then none else some (some (f w, r))
  match s.drop digits.length with
  | '<' :: '<' :: '-' :: r =>
    (textBelow true (skipGaps r)).map fun (w, r) => some (.text (stream 0) w, r)
  | '<' :: '<' :: r => (textBelow false (skipGaps r)).map fun (w, r) => some (.text (stream 0) w, r)
  | '<' :: '&' :: r => word r (.copy (stream 0))
  | '<' :: r => word r (.read (stream 0))
  | '>' :: '>' :: r => word r (.write (stream 1) true)
  | '>' :: '&' :: r => word r (.copy (stream 1))
  | '>' :: '|' :: r => word r (.write (stream 1) false)
  | '>' :: r => word r (.write (stream 1) false)
  | _ => some none

def redirects : Nat → List Char → Option (List Redirect × List Char)
  | 0, _ => none
  | n + 1, s => do
    match ← redirect? (skipGaps s) with
    | none => some ([], s)
    | some (r, s) => do
      let (rs, s) ← redirects n s
      some (r :: rs, s)

/-- The name that a word gives a value, and where the value begins. -/
def assigned? (s : List Char) : Option (List Char × List Char) :=
  let name := s.takeWhile isNameChar
  match s.drop name.length with
  | '=' :: r => if name.head?.any isNameStart then some (name, r) else none
  | _ => none

/-- Assignments, words and connections up to an operator. -/
def simpleFrom : Nat → List (List Char × Word) → List Word → List Redirect → List Char →
    Option (Command × List Char)
  | 0, _, _, _, _ => none
  | n + 1, sets, words, files, s => do
    let s := skipGaps s
    match ← redirect? s with
    | some (r, s) => simpleFrom n sets words (files ++ [r]) s
    | none =>
      if s.head?.all isOperator then
        if s.head? == some '(' || (sets.isEmpty && words.isEmpty && files.isEmpty) then none
        else
          let c := Command.simple sets words
          some (if files.isEmpty then c else .redirected c files, s)
      else match if words.isEmpty then assigned? s else none with
        | some (name, r) => do
          let (w, r) ← pieces (r.length + 1) .bare r
          simpleFrom n (sets ++ [(name, w)]) words files r
        | none => do
          let (w, r) ← pieces (s.length + 1) .bare s
          simpleFrom n sets (words ++ [w]) files r

def simple (s : List Char) : Option (Command × List Char) := simpleFrom (s.length + 1) [] [] [] s

/-- The words of a line. -/
def wordsOfLine : Nat → List Char → Option (List Word × List Char)
  | 0, _ => none
  | n + 1, s => do
    let s := skipGaps s
    if s.head?.all isOperator then some ([], s)
    else do
      let (w, r) ← pieces (s.length + 1) .bare s
      let (ws, r) ← wordsOfLine n r
      some (w :: ws, r)

/-- The patterns of an arm up to the parenthesis. -/
def patterns : Nat → List Char → Option (List Word × List Char)
  | 0, _ => none
  | n + 1, s => do
    let (w, r) ← pieces (s.length + 1) .bare (skipGaps s)
    match skipGaps r with
    | '|' :: r => do
      let (ws, r) ← patterns n r
      some (w :: ws, r)
    | ')' :: r => some ([w], r)
    | _ => none

/-- Whether a function is defined here, and what follows its parentheses. -/
def functionHead? (s : List Char) : Option (List Char × List Char) :=
  let name := s.takeWhile isNameChar
  if !name.head?.any isNameStart then none
  else match skipGaps (s.drop name.length) with
    | '(' :: r => match skipGaps r with
      | ')' :: r => some (name, r)
      | _ => none
    | _ => none

mutual

/-- Commands up to a closing keyword or the end. The first argument bounds the depth. -/
def parseList : Nat → List Char → Option (List Command × List Char)
  | 0, _ => none
  | n + 1, s => do
    let s := skipLines (s.length + 1) s
    if s.isEmpty || isClosing s then some ([], s)
    else do
      let (c, s) ← parseChain n s
      match skipGaps s with
      | '&' :: r => do
        let (cs, s) ← parseList n r
        some (.background c :: cs, s)
      | ';' :: ';' :: r => some ([c], ';' :: ';' :: r)
      | ';' :: r | '\n' :: r => do
        let (cs, s) ← parseList n r
        some (c :: cs, s)
      | s => some ([c], s)

/-- Commands joined by what the one before has to come to. -/
def parseChain : Nat → List Char → Option (Command × List Char)
  | 0, _ => none
  | n + 1, s => do
    let (first, s) ← parsePipe n s
    parseJoined n first s

def parseJoined : Nat → Command → List Char → Option (Command × List Char)
  | 0, _, _ => none
  | n + 1, first, s =>
    match skipGaps s with
    | '&' :: '&' :: r => do
      let (next, s) ← parsePipe n (skipLines (r.length + 1) r)
      parseJoined n (.both first next) s
    | '|' :: '|' :: r => do
      let (next, s) ← parsePipe n (skipLines (r.length + 1) r)
      parseJoined n (.either first next) s
    | s => some (first, s)

def parsePipe : Nat → List Char → Option (Command × List Char)
  | 0, _ => none
  | n + 1, s =>
    let s := skipGaps s
    if isKeyword "!" s then (parsePipe n (s.drop 1)).map fun (c, s) => (.negated c, s)
    else do
      let (parts, s) ← parseParts n s
      match parts with
      | [c] => some (c, s)
      | _ => some (.pipe parts, s)

def parseParts : Nat → List Char → Option (List Command × List Char)
  | 0, _ => none
  | n + 1, s => do
    let (c, s) ← parseCommand n s
    match skipGaps s with
    | '|' :: '|' :: _ => some ([c], s)
    | '|' :: r => do
      let (cs, s) ← parseParts n (skipLines (r.length + 1) r)
      some (c :: cs, s)
    | s => some ([c], s)

def parseCommand : Nat → List Char → Option (Command × List Char)
  | 0, _ => none
  | n + 1, s =>
    let s := skipGaps s
    let close (c : Command) (s : List Char) : Option (Command × List Char) := do
      let (files, s) ← redirects (s.length + 1) s
      some (if files.isEmpty then c else .redirected c files, s)
    if s.head? == some '(' then do
      let (c, s) ← parseBlock n (s.drop 1)
      let s ← expectChar? ')' s
      close (.subshell c) s
    else if isKeyword "\x7b" s then do
      let (c, s) ← parseBlock n (s.drop 1)
      let s ← expect? "\x7d" s
      close c s
    else if isKeyword "if" s then do
      let (c, s) ← parseBranch n (s.drop 2)
      close c s
    else if isKeyword "while" s || isKeyword "until" s then do
      let (test, r) ← parseBlock n (s.drop 5)
      let r ← expect? "do" r
      let (body, r) ← parseBlock n r
      let r ← expect? "done" r
      close (.loop (isKeyword "until" s) test body) r
    else if isKeyword "for" s then do
      let s := skipGaps (s.drop 3)
      let name := keyword s
      let s := skipLines s.length (s.drop name.length)
      let (words, s) ←
        if isKeyword "in" s then (wordsOfLine s.length (s.drop 2)).map fun (ws, r) => (some ws, r)
        else some (none, s)
      let s := match skipGaps s with
        | ';' :: r => r
        | s => s
      let s ← expect? "do" (skipLines (s.length + 1) s)
      let (body, s) ← parseBlock n s
      let s ← expect? "done" s
      close (.each name words body) s
    else if isKeyword "case" s then do
      let (w, r) ← pieces (s.length + 1) .bare (skipGaps (s.drop 4))
      let s ← expect? "in" (skipLines (r.length + 1) r)
      let (arms, s) ← parseArms n s
      close (.choose w arms) s
    else if isClosing s then none
    else match functionHead? s with
      | some (name, r) => do
        let (body, s) ← parseCommand n (skipLines (r.length + 1) r)
        some (.define name body, s)
      | none => simple s

/-- A list that may not be empty, as one command. -/
def parseBlock : Nat → List Char → Option (Command × List Char)
  | 0, _ => none
  | n + 1, s => do
    let (cs, s) ← parseList n s
    if cs.isEmpty then none else some (.sequence cs, s)

/-- What follows `if` or `elif`. -/
def parseBranch : Nat → List Char → Option (Command × List Char)
  | 0, _ => none
  | n + 1, s => do
    let (test, s) ← parseBlock n s
    let s ← expect? "then" s
    let (yes, s) ← parseBlock n s
    if isKeyword "elif" s then do
      let (no, s) ← parseBranch n (s.drop 4)
      some (.branch test yes no, s)
    else if isKeyword "else" s then do
      let (no, s) ← parseBlock n (s.drop 4)
      let s ← expect? "fi" s
      some (.branch test yes no, s)
    else do
      let s ← expect? "fi" s
      some (.branch test yes (.sequence []), s)

def parseArms : Nat → List Char → Option (List (List Word × Command) × List Char)
  | 0, _ => none
  | n + 1, s => do
    let s := skipLines (s.length + 1) s
    if isKeyword "esac" s then some ([], s.drop 4)
    else do
      let s := match s with
        | '(' :: r => r
        | s => s
      let (ps, s) ← patterns s.length s
      let (cs, s) ← parseList n s
      match s with
      | ';' :: ';' :: r => do
        let (arms, s) ← parseArms n r
        some ((ps, .sequence cs) :: arms, s)
      | s => do
        let s ← expect? "esac" s
        some ([(ps, .sequence cs)], s)

end

/-- The commands of a line, and the lines behind it. -/
def line : Nat → List Char → Option (List Command × List Char)
  | 0, _ => none
  | n + 1, s => do
    let (c, s) ← parseChain (4 * s.length + 8) s
    let more (c : Command) (r : List Char) : Option (List Command × List Char) :=
      match skipGaps r with
      | [] => some ([c], [])
      | '\n' :: r => some ([c], r)
      | r => (line n r).map fun (cs, r) => (c :: cs, r)
    match skipGaps s with
    | [] => some ([c], [])
    | '&' :: r => more (.background c) r
    | ';' :: ';' :: _ => none
    | ';' :: r => more c r
    | '\n' :: r => some ([c], r)
    | _ => none

/-- The commands of a script, a line after the other, up to one that cannot be read, and whether
there is such a line. -/
def program : Nat → List Char → List Command × Bool
  | 0, _ => ([], true)
  | n + 1, s =>
    let s := skipLines (s.length + 1) s
    if s.isEmpty then ([], false)
    else match line (s.length + 1) s with
      | none => ([], true)
      | some (cs, s) =>
        let (rest, failed) := program n s
        (cs ++ rest, failed)

def commands (script : List Char) : List Command × Bool := program (script.length + 1) script

end Vigil.Script
