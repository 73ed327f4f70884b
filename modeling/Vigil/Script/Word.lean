import Vigil.Text.Number
/-! The words of a shell script, as they are written. -/
namespace Vigil.Script

/-- What becomes of a value in braces. With `orEmpty` an empty value counts as none. -/
inductive Change where
  | keep | length
  | orElse (orEmpty : Bool)
  | orAssign (orEmpty : Bool)
  | orComplain (orEmpty : Bool)
  | instead (orEmpty : Bool)
  | cutFront (longest : Bool)
  | cutBack (longest : Bool)
deriving DecidableEq

/-- A part of a word. What is not quoted is cut at blanks and takes part in patterns. -/
inductive Piece where
  | text (quoted : Bool) (s : List Char)
  | value (quoted : Bool) (name : List Char) (change : Change) (word : List Piece)
  | output (quoted : Bool) (script : List Char)
  | number (quoted : Bool) (expression : List Piece)

abbrev Word := List Piece

def isGap (c : Char) : Bool := c == ' ' || c == '\t'

/-- Blanks, line ends and other white space. -/
def isSpace (c : Char) : Bool := [' ', '\t', '\n', '\r', '\x0b', '\x0c'].contains c

/-- What ends a word. -/
def isOperator (c : Char) : Bool := isGap c || ['\n', ';', '&', '|', '<', '>', '(', ')'].contains c

def isNameStart (c : Char) : Bool := c.isAlpha || c == '_'

def isNameChar (c : Char) : Bool := c.isAlphanum || c == '_'

/-- Values that have a sign for their name. -/
def isSign (c : Char) : Bool := ['@', '*', '#', '?', '-', '$', '!'].contains c

/-- Where pieces stand, which says what ends them. -/
inductive Context where
  | bare | double
  | braced (quoted : Bool)
  /-- A text to its end. -/
  | body
deriving DecidableEq

namespace Context

def isQuoted : Context → Bool
  | bare => false
  | braced quoted => quoted
  | double | body => true

def ends (c : Char) : Context → Bool
  | bare => isOperator c
  | double => c == '\x22'
  | braced _ => c == '\x7d'
  | body => false

/-- A closing sign is passed over, an operator is not. -/
def after (c : Char) (r : List Char) : Context → List Char
  | bare => c :: r
  | _ => r

def mayEndHere : Context → Bool
  | bare | body => true
  | _ => false

/-- What a backslash takes its meaning from, between quotes. -/
def escapes (c : Char) (x : Context) : Bool :=
  ['$', '\x60', '\\'].contains c || (x == double && c == '\x22') ||
    (x == braced true && (c == '\x22' || c == '\x7d'))

end Context

/-- What is open around a place in a script. -/
inductive Opened where
  | paren | double | single
deriving DecidableEq

/-- A script up to the parenthesis that closes it. `done` holds it backwards. -/
def enclosedFrom (stack : List Opened) (escaped : Bool) (done : List Char) :
    List Char → Option (List Char × List Char)
  | [] => none
  | c :: r =>
    let next (stack : List Opened) := enclosedFrom stack false (c :: done) r
    if escaped then next stack
    else match stack with
      | [] => none
      | .single :: above => if c == '\x27' then next above else next stack
      | .double :: above =>
        if c == '\\' then enclosedFrom stack true (c :: done) r
        else if c == '\x22' then next above
        else if c == '(' && done.head? == some '$' then next (.paren :: stack)
        else next stack
      | .paren :: above =>
        if c == '\\' then enclosedFrom stack true (c :: done) r
        else if c == '\x22' then next (.double :: stack)
        else if c == '\x27' then next (.single :: stack)
        else if c == '(' then next (.paren :: stack)
        else if c == ')' then if above.isEmpty then some (done.reverse, r) else next above
        else next stack

def enclosed (s : List Char) : Option (List Char × List Char) := enclosedFrom [.paren] false [] s

/-- A script up to a back quote. Some characters take a backslash there. -/
def backQuoted (quoted : Bool) : List Char → Option (List Char × List Char)
  | [] => none
  | '\\' :: c :: r =>
    let special := ['$', '\x60', '\\'].contains c || (quoted && c == '\x22')
    (backQuoted quoted r).map fun (s, r) => ((if special then [c] else ['\\', c]) ++ s, r)
  | c :: r =>
    if c == '\x60' then some ([], r) else (backQuoted quoted r).map fun (s, r) => (c :: s, r)

/-- The name of a value, and what follows it. -/
def valueName? : List Char → Option (List Char × List Char)
  | [] => none
  | c :: r =>
    if isNameStart c then some (c :: r.takeWhile isNameChar, r.dropWhile isNameChar)
    else if c.isDigit then some (c :: r.takeWhile Char.isDigit, r.dropWhile Char.isDigit)
    else if isSign c then some ([c], r)
    else none

/-- What stands behind a name in braces. -/
def change? : List Char → Option (Change × List Char)
  | ':' :: '-' :: r => some (.orElse true, r)
  | ':' :: '=' :: r => some (.orAssign true, r)
  | ':' :: '?' :: r => some (.orComplain true, r)
  | ':' :: '+' :: r => some (.instead true, r)
  | '-' :: r => some (.orElse false, r)
  | '=' :: r => some (.orAssign false, r)
  | '?' :: r => some (.orComplain false, r)
  | '+' :: r => some (.instead false, r)
  | '#' :: '#' :: r => some (.cutFront true, r)
  | '#' :: r => some (.cutFront false, r)
  | '%' :: '%' :: r => some (.cutBack true, r)
  | '%' :: r => some (.cutBack false, r)
  | _ => none

def Change.isCut : Change → Bool
  | cutFront _ | cutBack _ => true
  | _ => false

/-- The expression in a second pair of parentheses. -/
def doubled? (s : List Char) : Option (List Char) :=
  match s with
  | '(' :: r => if r.getLast? == some ')' then some r.dropLast else none
  | _ => none

/-- Nothing but the arguments, each a word of its own; without any there is no word. -/
def isArguments : Word → Bool
  | [.value _ name .keep _] => name == ['@']
  | _ => false

mutual

/-- The pieces of a word and what follows it. The first argument bounds the depth. -/
def pieces : Nat → Context → List Char → Option (Word × List Char)
  | 0, _, _ => none
  | _ + 1, x, [] => if x.mayEndHere then some ([], []) else none
  | n + 1, x, c :: r =>
    let quoted := x.isQuoted
    let more (p : List Piece) (r : List Char) := (pieces n x r).map fun (ps, r) => (p ++ ps, r)
    if x.ends c then some ([], x.after c r)
    else if c == '\\' then
      match r with
      | [] => more [.text quoted ['\\']] []
      | '\n' :: r => more [] r
      | e :: r =>
        if quoted && !x.escapes e then more [.text true ['\\', e]] r else more [.text true [e]] r
    else if c == '\x27' && !quoted then
      let inside := r.takeWhile (· != '\x27')
      if inside.length == r.length then none
      else more [.text true inside] (r.drop (inside.length + 1))
    else if c == '\x22' && x != .body then do
      let (inside, r) ← pieces n .double r
      more (if isArguments inside then inside else .text true [] :: inside) r
    else if c == '\x60' then do
      let (script, r) ← backQuoted quoted r
      more [.output quoted script] r
    else if c == '$' then
      match r.head? with
      | none => more [.text quoted [c]] r
      | some d =>
        if d == '(' || d == '\x7b' then do
          let (p, r) ← value n quoted r
          more [p] r
        else match valueName? r with
          | none => more [.text quoted [c]] r
          | some (name, _) =>
            let name := if isNameStart d then name else [d]
            more [.value quoted name .keep []] (r.drop name.length)
    else more [.text quoted [c]] r

/-- A value in braces, what a script says, or a number, behind the dollar sign. -/
def value : Nat → Bool → List Char → Option (Piece × List Char)
  | 0, _, _ => none
  | n + 1, quoted, '(' :: r => do
    let (inside, r) ← enclosed r
    match doubled? inside with
    | some expression => do
      let (ps, _) ← pieces n .body expression
      some (.number quoted ps, r)
    | none => some (.output quoted inside, r)
  | n + 1, quoted, _ :: r =>
    let length? := match r with
      | '#' :: s => match valueName? s with
        | some (name, '\x7d' :: s) => some (Piece.value quoted name .length [], s)
        | _ => none
      | _ => none
    match length? with
    | some p => some p
    | none => do
      let (name, r) ← valueName? r
      match r with
      | '\x7d' :: r => some (.value quoted name .keep [], r)
      | _ => do
        let (change, r) ← change? r
        let (word, r) ← pieces n (.braced (quoted && !change.isCut)) r
        some (.value quoted name change word, r)
  | _, _, [] => none

end

end Vigil.Script
