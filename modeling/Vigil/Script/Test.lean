import Vigil.Script.Job
/-! Conditions of a script: on texts, numbers and files. -/
namespace Vigil.Script.Test

open Files (FileError)

/-- A decimal with a sign and blanks around it. -/
def integer? (s : String) : Option Int :=
  let cs := ((s.toList.dropWhile isSpace).reverse.dropWhile isSpace).reverse
  match cs with
  | '-' :: r => (Text.digits? 10 r).map fun n => -(n : Int)
  | '+' :: r => (Text.digits? 10 r).map fun n => n
  | _ => (Text.digits? 10 cs).map fun n => n

def compare? (a : String) (sign : String) (b : String) : Option Bool :=
  let numbers (f : Int → Int → Bool) : Option Bool := do
    some (f (← integer? a) (← integer? b))
  match sign with
  | "=" | "==" => some (a == b)
  | "!=" => some (a != b)
  | "<" => some (decide (a < b))
  | ">" => some (decide (b < a))
  | "-eq" => numbers fun x y => x == y
  | "-ne" => numbers fun x y => x != y
  | "-lt" => numbers fun x y => decide (x < y)
  | "-le" => numbers fun x y => decide (x ≤ y)
  | "-gt" => numbers fun x y => decide (y < x)
  | "-ge" => numbers fun x y => decide (y ≤ x)
  | _ => none

def isComparison (sign : String) : Bool :=
  ["=", "==", "!=", "<", ">", "-eq", "-ne", "-lt", "-le", "-gt", "-ge"].contains sign

def holds? (p : Job) (sign : String) (s : String) : Option Bool :=
  let entry := (p.tree.find (p.rooted s)).toOption
  match sign with
  | "-n" => some (!s.isEmpty)
  | "-z" => some s.isEmpty
  | "-e" => some (entry.isSome || (p.read s).toOption.isSome)
  | "-f" => some (p.tree.isFile (p.rooted s))
  | "-d" => some (p.tree.isDirectory (p.rooted s))
  | "-c" => some (entry.any fun e => e.2 == .device)
  | "-h" | "-L" => some (p.readLink s).toOption.isSome
  | "-r" | "-w" => some entry.isSome
  | "-x" => some (entry.any fun e => e.2 == .dir || p.executable e.1)
  | "-s" => some (entry.any fun e => match e.2 with
      | .file bytes => !bytes.isEmpty
      | .dir => true
      | _ => false)
  | "-t" | "-p" | "-S" | "-b" => some false
  | _ => none

mutual

/-- Conditions of which one has to hold, and the words behind them. -/
def anyOf (p : Job) : Nat → List String → Option (Bool × List String)
  | 0, _ => none
  | n + 1, ws => do
    let (a, ws) ← allOf p n ws
    match ws with
    | "-o" :: ws => (anyOf p n ws).map fun (b, ws) => (a || b, ws)
    | _ => some (a, ws)

def allOf (p : Job) : Nat → List String → Option (Bool × List String)
  | 0, _ => none
  | n + 1, ws => do
    let (a, ws) ← single p n ws
    match ws with
    | "-a" :: ws => (allOf p n ws).map fun (b, ws) => (a && b, ws)
    | _ => some (a, ws)

def single (p : Job) : Nat → List String → Option (Bool × List String)
  | 0, _ => none
  | _ + 1, [] => none
  | _ + 1, [s] => some (!s.isEmpty, [])
  | n + 1, a :: sign :: rest =>
    match if isComparison sign then rest else [] with
    | b :: ws => (compare? a sign b).map (·, ws)
    | [] =>
      if a == "!" then (single p n (sign :: rest)).map fun (b, ws) => (!b, ws)
      else if a == "(" then do
        let (b, ws) ← anyOf p n (sign :: rest)
        match ws with
        | ")" :: ws => some (b, ws)
        | _ => none
      else match holds? p a sign with
        | some b => some (b, rest)
        | none => some (!a.isEmpty, sign :: rest)

end

/-- `none` where the words are no condition. -/
def eval (p : Job) (ws : List String) : Option Bool :=
  if ws.isEmpty then some false
  else match anyOf p (4 * ws.length + 4) ws with
    | some (b, []) => some b
    | _ => none

end Vigil.Script.Test
