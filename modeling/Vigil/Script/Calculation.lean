import Vigil.Script.Regular
import Vigil.Script.Test
/-! Calculations whose operands and operators are words. -/
namespace Vigil.Script.Calculation

/-- The operators, those that bind weakest first. -/
def levels : List (List String) :=
  [["|"], ["&"], ["=", "==", "!=", "<", "<=", ">", ">="], ["+", "-"], ["*", "/", "%"], [":"]]

def isNull (s : String) : Bool := s.isEmpty || Test.integer? s == some 0

/-- What an expression at the start of a text matches: its first group, or how much it is. -/
def matching (s pattern : String) : Option String :=
  (Regular.ofText? false pattern.toList).map fun e =>
    match e.longest? true s.toList, e.hasGroup with
    | some m, true => String.ofList ((m.groups.lookup 1).getD [])
    | none, true => ""
    | some m, false => toString (s.length - m.rest.length)
    | none, false => "0"

/-- One operator between two operands. Nothing is divided by zero. -/
def operation (a op b : String) : Option String := do
  let number (f : Int → Int → Int) : Option String := do
    some (toString (f (← Test.integer? a) (← Test.integer? b)))
  let quotient (f : Int → Int → Int) : Option String :=
    if Test.integer? b == some 0 then none else number f
  let truth (b : Bool) := some (if b then "1" else "0")
  let compare (sign : String) (texts : Bool) : Option String :=
    truth ((Test.compare? a sign b).getD texts)
  match op with
  | "|" => some (if !isNull a then a else if !isNull b then b else "0")
  | "&" => some (if isNull a || isNull b then "0" else a)
  | "+" => number (· + ·)
  | "-" => number (· - ·)
  | "*" => number (· * ·)
  | "/" => quotient Int.tdiv
  | "%" => quotient Int.tmod
  | ":" => matching a b
  | "=" | "==" => compare "-eq" (a == b)
  | "!=" => compare "-ne" (a != b)
  | "<" => compare "-lt" (decide (a < b))
  | ">" => compare "-gt" (decide (b < a))
  | "<=" => compare "-le" (decide (a ≤ b))
  | ">=" => compare "-ge" (decide (b ≤ a))
  | _ => none

/-- The part of a text from a position on, counted from one. -/
def part (s first length : String) : String :=
  match Test.integer? first, Test.integer? length with
  | some k, some n =>
    if k ≤ 0 || n ≤ 0 then "" else String.ofList ((s.toList.drop (k - 1).natAbs).take n.natAbs)
  | _, _ => ""

/-- Where the first of some characters stands. -/
def position (s chars : String) : Nat :=
  let before := s.toList.takeWhile fun c => !(chars.toList.contains c)
  if before.length == s.length then 0 else before.length + 1

mutual

/-- An expression of the operators left, and the words behind it. -/
def level : Nat → List (List String) → List String → Option (String × List String)
  | 0, _, _ => none
  | n + 1, [], ws => operand n ws
  | n + 1, ops :: rest, ws => do
    let (a, ws) ← level n rest ws
    further n ops rest a ws

/-- More operands of the same level. -/
def further : Nat → List String → List (List String) → String → List String →
    Option (String × List String)
  | 0, _, _, _, _ => none
  | _ + 1, _, _, a, [] => some (a, [])
  | n + 1, ops, rest, a, op :: ws =>
    if ops.contains op then do
      let (b, ws) ← level n rest ws
      let x ← operation a op b
      further n ops rest x ws
    else some (a, op :: ws)

def operand : Nat → List String → Option (String × List String)
  | 0, _ => none
  | n + 1, ws =>
    match ws with
    | [] => none
    | "(" :: ws => do
      let (a, ws) ← level n levels ws
      match ws with
      | ")" :: ws => some (a, ws)
      | _ => none
    | ["length"] | ["match"] | ["substr"] | ["index"] => some (ws.headD "", [])
    | "length" :: ws => do
      let (s, ws) ← operand n ws
      some (toString s.length, ws)
    | "match" :: ws => do
      let (s, ws) ← operand n ws
      let (e, ws) ← operand n ws
      some (← matching s e, ws)
    | "index" :: ws => do
      let (s, ws) ← operand n ws
      let (chars, ws) ← operand n ws
      some (toString (position s chars), ws)
    | "substr" :: ws => do
      let (s, ws) ← operand n ws
      let (first, ws) ← operand n ws
      let (length, ws) ← operand n ws
      some (part s first length, ws)
    | a :: ws => some (a, ws)

end

/-- The value of all words, if they are an expression. -/
def eval (ws : List String) : Option String :=
  match level (12 * ws.length + 12) levels ws with
  | some (s, []) => some s
  | _ => none

end Vigil.Script.Calculation
