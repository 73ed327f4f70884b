import Vigil.Script.Filters
import Vigil.Script.Regular
/-! Rules that change the lines of a text one after the other. -/
namespace Vigil.Script.LineEditor

/-- What chooses a line. -/
inductive Address where
  | number (k : Nat)
  | last
  | fits (e : Regular)

/-- A part of what is put in for a match. -/
inductive Filling where
  | text (c : Char)
  | group (k : Nat)

inductive Action where
  | delete | print | quit | number
  /-- Puts something in for one match, or for that one and all behind it. -/
  | replace (e : Regular) (fillings : List Filling) (first : Nat) (all prints : Bool)
  | exchange (old new : List Char)
  | before (s : List Char)
  | after (s : List Char)
  | instead (s : List Char)

structure Rule where
  start : Option Address := none
  stop : Option Address := none
  /-- Holds for the lines that are not chosen. -/
  negated : Bool := false
  action : Action

/-- Passes blanks and what stands between rules. -/
def skipBetween (s : List Char) : List Char := s.dropWhile fun c => c == ';' || isSpace c

/-- A text up to a mark that has no backslash in front. A backslash before the mark goes away, and
within brackets the mark is a mark too. -/
def upTo (mark : Char) : List Char → Option (List Char × List Char)
  | [] => none
  | '\\' :: c :: r => (upTo mark r).map fun (s, r) =>
    ((if c == mark then [c] else ['\\', c]) ++ s, r)
  | c :: r => if c == mark then some ([], r) else (upTo mark r).map fun (s, r) => (c :: s, r)

def fillings : List Char → List Filling
  | '\\' :: c :: r =>
    (if c.isDigit then .group (c.toNat - 48)
      else .text (if c == 'n' then '\n' else if c == 't' then '\t' else c)) :: fillings r
  | '&' :: r => .group 0 :: fillings r
  | c :: r => .text c :: fillings r
  | [] => []

def address? (extended : Bool) (s : List Char) : Option (Option Address × List Char) :=
  match s with
  | '$' :: r => some (some .last, r)
  | '/' :: r => do
    let (e, r) ← upTo '/' r
    some (some (.fits (← Regular.ofText? extended e)), r)
  | _ =>
    let digits := s.takeWhile Char.isDigit
    some ((Text.digits? 10 digits).map .number, s.drop digits.length)

/-- The text of a line for itself, behind an optional backslash and line end. -/
def ownLine (s : List Char) : List Char × List Char :=
  let s := s.dropWhile isGap
  let s := match s with
    | '\\' :: '\n' :: r => r
    | '\\' :: r => r.dropWhile isGap
    | s => s
  (s.takeWhile (· != '\n'), s.dropWhile (· != '\n'))

def action? (extended : Bool) (s : List Char) : Option (Action × List Char) :=
  match s with
  | 'd' :: r => some (.delete, r)
  | 'p' :: r => some (.print, r)
  | 'q' :: r => some (.quit, r)
  | '=' :: r => some (.number, r)
  | 'i' :: r => some (.before (ownLine r).1, (ownLine r).2)
  | 'a' :: r => some (.after (ownLine r).1, (ownLine r).2)
  | 'c' :: r => some (.instead (ownLine r).1, (ownLine r).2)
  | 'y' :: mark :: r => do
    let (old, r) ← upTo mark r
    let (new, r) ← upTo mark r
    if old.length != new.length then none else some (.exchange old new, r)
  | 's' :: mark :: r => do
    let (e, r) ← upTo mark r
    let (new, r) ← upTo mark r
    let flags := r.takeWhile fun c => c.isDigit || c == 'g' || c == 'p'
    let first := (Text.digits? 10 (flags.filter Char.isDigit)).getD 1
    let e ← Regular.ofText? extended e
    some (.replace e (fillings new) first (flags.contains 'g') (flags.contains 'p'), r.drop flags.length)
  | _ => none

def rules (extended : Bool) : Nat → List Char → Option (List Rule)
  | 0, _ => none
  | n + 1, s => do
    let s := skipBetween s
    if s.isEmpty then some []
    else do
      let (start, s) ← address? extended s
      let (stop, s) ← match start, s with
        | some _, ',' :: r => address? extended r
        | _, s => some (none, s)
      let s := s.dropWhile isGap
      let negated := s.head? == some '!'
      let s := (if negated then s.drop 1 else s).dropWhile isGap
      let (action, s) ← action? extended s
      let s := s.dropWhile isGap
      if s.head?.any fun c => c != ';' && c != '\n' then none
      else do
        let rest ← rules extended n s
        some (⟨start, stop, negated, action⟩ :: rest)

/-- The rules of a script, if all can be read. -/
def ofText? (extended : Bool) (s : List Char) : Option (List Rule) := rules extended (s.length + 1) s

/-- A line with its number, and whether it is the last one. -/
structure Line where
  number : Nat
  isLast : Bool
  text : List Char

def Address.holds (l : Line) : Address → Bool
  | number k => k == l.number
  | last => l.isLast
  | fits e => e.isIn l.text

/-- Whether a line is chosen, and whether the lines behind it are until the rule's end comes. An
expression is looked for from the next line on. -/
def chosen (r : Rule) (open_ : Bool) (l : Line) : Bool × Bool :=
  match r.start, r.stop with
  | none, _ => (true, false)
  | some a, none => (a.holds l, false)
  | some a, some b =>
    let ends : Bool := match b with
      | .number k => k ≤ l.number
      | b => b.holds l
    let fromNext : Bool := match b with
      | .fits _ => true
      | _ => false
    if open_ then (true, !ends)
    else if a.holds l then (true, fromNext || !ends)
    else (false, false)

/-- The text of a match after it has been replaced. -/
def filled (fs : List Filling) (f : Regular.Found) : List Char :=
  fs.flatMap fun
    | .text c => [c]
    | .group 0 => f.fit
    | .group k => (f.groups.lookup k).getD []

/-- A line after a replacement, and whether anything was replaced. -/
def replaced (e : Regular) (fs : List Filling) (first : Nat) (all : Bool) (s : List Char) :
    List Char × Bool :=
  let (found, last) := e.findAll (s.length + 2) true true s
  let parts := ((List.range found.length).zip found).map fun (k, f) =>
    let here := k + 1 == first || (all && first ≤ k + 1)
    f.before ++ if here then filled fs f else f.fit
  (parts.flatten ++ last, first ≤ found.length)

/-- What came of a line so far. -/
structure Outcome where
  text : List Char
  printed : List (List Char) := []
  behind : List (List Char) := []
  deleted : Bool := false
  quits : Bool := false

def Outcome.act (o : Outcome) (number : Nat) : Action → Outcome
  | .delete => { o with deleted := true }
  | .print => { o with printed := o.printed ++ [o.text] }
  | .quit => { o with quits := true }
  | .number => { o with printed := o.printed ++ [Text.decimal number] }
  | .replace e fs first all prints =>
    let (text, any) := replaced e fs first all o.text
    { o with text, printed := if any && prints then o.printed ++ [text] else o.printed }
  | .exchange old new =>
    { o with text := o.text.map fun c => ((old.zip new).lookup c).getD c }
  | .before s => { o with printed := o.printed ++ [s] }
  | .after s => { o with behind := o.behind ++ [s] }
  | .instead s => { o with printed := o.printed ++ [s], deleted := true }

/-- Goes through the rules for a line, each with whether it is open. -/
def pass (l : Line) : List (Rule × Bool) → Outcome → Outcome × List (Rule × Bool)
  | [], o => (o, [])
  | (r, open_) :: rest, o =>
    if o.deleted || o.quits then (o, (r, open_) :: rest)
    else
      let (isChosen, open_) := chosen r open_ { l with text := o.text }
      let o := if isChosen != r.negated then o.act l.number r.action else o
      let (o, rest) := pass l rest o
      (o, (r, open_) :: rest)

/-- The lines that come out of some lines. With `silent` only what rules print does. -/
def run (silent : Bool) : Nat → List (Rule × Bool) → List (List Char) → List (List Char)
  | _, _, [] => []
  | k, rs, s :: rest =>
    let (o, rs) := pass ⟨k, rest.isEmpty, s⟩ rs { text := s }
    let out := o.printed ++ (if silent || o.deleted then [] else [o.text]) ++ o.behind
    if o.quits then out else out ++ run silent (k + 1) rs rest

def edit (silent : Bool) (rs : List Rule) (ls : List (List Char)) : List (List Char) :=
  run silent 1 (rs.map (·, false)) ls

end Vigil.Script.LineEditor
