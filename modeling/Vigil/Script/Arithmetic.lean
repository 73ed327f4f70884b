import Vigil.Script.Word
/-! Integer expressions of a shell, on numbers of 64 bits. -/
namespace Vigil.Script

namespace Arithmetic

inductive Token where
  | number (n : Nat)
  | name (s : List Char)
  | sign (s : String)
deriving DecidableEq

inductive Expr where
  | number (n : Int)
  | name (s : List Char)
  | unary (sign : String) (e : Expr)
  | binary (sign : String) (a b : Expr)
  | choice (c a b : Expr)
  | assign (name : List Char) (sign : String) (e : Expr)

/-- Signs, the longer ones before those they begin with. -/
def signs : List String := [
  "<<=", ">>=", "<<", ">>", "<=", ">=", "==", "!=", "&&", "||", "+=", "-=", "*=", "/=", "%=", "&=",
  "|=", "^=", "<", ">", "=", "+", "-", "*", "/", "%", "&", "|", "^", "~", "!", "?", ":", "(", ")"]

/-- Numbers in front of which there is a zero are octal, or hexadecimal with an `x`. -/
def literal? (s : List Char) : Option Nat :=
  match s with
  | '0' :: 'x' :: r | '0' :: 'X' :: r => Text.digits? 16 r
  | '0' :: c :: r => Text.digits? 8 (c :: r)
  | _ => Text.digits? 10 s

def isSpacing (c : Char) : Bool := isGap c || c == '\n'

def tokens : Nat → List Char → Option (List Token)
  | _, [] => some []
  | 0, _ => none
  | n + 1, c :: r =>
    if isSpacing c then tokens n r
    else if c.isDigit then do
      let word := c :: r.takeWhile isNameChar
      let value ← literal? word
      (tokens n ((c :: r).drop word.length)).map (.number value :: ·)
    else if isNameStart c then
      let word := c :: r.takeWhile isNameChar
      (tokens n ((c :: r).drop word.length)).map (.name word :: ·)
    else match signs.find? fun s => s.toList.isPrefixOf (c :: r) with
      | some s => (tokens n ((c :: r).drop s.length)).map (.sign s :: ·)
      | none => none

/-- How tight a sign between two operands binds. -/
def rank? (s : String) : Option Nat :=
  ([("||", 1), ("&&", 2), ("|", 3), ("^", 4), ("&", 5), ("==", 6), ("!=", 6), ("<", 7), (">", 7),
    ("<=", 7), (">=", 7), ("<<", 8), (">>", 8), ("+", 9), ("-", 9), ("*", 10), ("/", 10),
    ("%", 10)] : List (String × Nat)).lookup s

/-- What an assignment does before it assigns. -/
def assigning? (s : String) : Option String :=
  if s == "=" then some ""
  else if s.endsWith "=" && !(["==", "!=", "<=", ">="].contains s) then
    some (String.ofList s.toList.dropLast)
  else none

mutual

def parse : Nat → List Token → Option (Expr × List Token)
  | 0, _ => none
  | n + 1, ts =>
    let assignment := match ts with
      | .name v :: .sign s :: r => (assigning? s).map fun op => (v, op, r)
      | _ => none
    match assignment with
    | some (v, op, r) => (parse n r).map fun (e, r) => (.assign v op e, r)
    | none => do
      let (c, r) ← parseAbove n 1 ts
      match r with
      | .sign "?" :: r => do
        let (a, r) ← parse n r
        match r with
        | .sign ":" :: r => (parse n r).map fun (b, r) => (.choice c a b, r)
        | _ => none
      | _ => some (c, r)

/-- Operands joined by signs of a rank or a higher one. -/
def parseAbove : Nat → Nat → List Token → Option (Expr × List Token)
  | 0, _, _ => none
  | n + 1, rank, ts => do
    let (a, r) ← parseUnary n ts
    parseRest n rank a r

def parseRest : Nat → Nat → Expr → List Token → Option (Expr × List Token)
  | 0, _, _, _ => none
  | n + 1, rank, a, ts =>
    match ts with
    | .sign s :: r =>
      match (rank? s).filter (rank ≤ ·) with
      | some own => do
        let (b, r) ← parseAbove n (own + 1) r
        parseRest n rank (.binary s a b) r
      | none => some (a, ts)
    | _ => some (a, ts)

def parseUnary : Nat → List Token → Option (Expr × List Token)
  | 0, _ => none
  | _ + 1, .number k :: r => some (.number k, r)
  | _ + 1, .name v :: r => some (.name v, r)
  | n + 1, .sign s :: r =>
    if s == "(" then do
      let (e, r) ← parse n r
      match r with
      | .sign ")" :: r => some (e, r)
      | _ => none
    else if ["-", "+", "!", "~"].contains s then (parseUnary n r).map fun (e, r) => (.unary s e, r)
    else none
  | _ + 1, [] => none

end

/-- Results are taken modulo 2^64, into the numbers with a sign. -/
def wrap (n : Int) : Int := Int.bmod n 18446744073709551616

def unwrap (n : Int) : Nat := (n % 18446744073709551616).toNat

def truth (b : Bool) : Int := if b then 1 else 0

/-- Division goes towards zero; there is none by zero. -/
def operate? (sign : String) (a b : Int) : Option Int :=
  match sign with
  | "+" => some (wrap (a + b))
  | "-" => some (wrap (a - b))
  | "*" => some (wrap (a * b))
  | "/" => if b = 0 then none else some (wrap (Int.tdiv a b))
  | "%" => if b = 0 then none else some (Int.tmod a b)
  | "<<" => some (wrap (a * (Nat.pow 2 (unwrap b % 64) : Nat)))
  | ">>" => some (Int.fdiv a (Nat.pow 2 (unwrap b % 64) : Nat))
  | "<" => some (truth (a < b))
  | ">" => some (truth (b < a))
  | "<=" => some (truth (a ≤ b))
  | ">=" => some (truth (b ≤ a))
  | "==" => some (truth (a = b))
  | "!=" => some (truth (a ≠ b))
  | "&" => some (wrap (Nat.land (unwrap a) (unwrap b)))
  | "|" => some (wrap (Nat.lor (unwrap a) (unwrap b)))
  | "^" => some (wrap (Nat.xor (unwrap a) (unwrap b)))
  | _ => some b

/-- A number as it may stand in a value, with a sign and blanks in front. -/
def ofValue? (s : List Char) : Option Int :=
  let s := s.dropWhile isSpacing
  match s with
  | [] => some 0
  | '-' :: r => (literal? r).map fun n => wrap (-(n : Int))
  | '+' :: r => (literal? r).map fun n => wrap n
  | _ => (literal? s).map fun n => wrap n

def toValue (n : Int) : List Char := Text.decimalInt n

/-- The values by their names. -/
abbrev Values := List (List Char × List Char)

/-- The result, and the values after all assignments. A second operand that does not matter is
left alone. -/
def eval (values : Values) : Expr → Option (Int × Values)
  | .number n => some (wrap n, values)
  | .name v => (ofValue? ((values.lookup v).getD [])).map (·, values)
  | .unary s e => do
    let (a, values) ← eval values e
    some (match s with
      | "-" => wrap (-a)
      | "!" => truth (a = 0)
      | "~" => -a - 1
      | _ => a, values)
  | .binary s a b => do
    let (x, values) ← eval values a
    if s == "&&" && x = 0 then some (0, values)
    else if s == "||" && x ≠ 0 then some (1, values)
    else do
      let (y, values) ← eval values b
      if s == "&&" || s == "||" then some (truth (y ≠ 0), values)
      else (operate? s x y).map (·, values)
  | .choice c a b => do
    let (x, values) ← eval values c
    if x ≠ 0 then eval values a else eval values b
  | .assign v s e => do
    let (y, values) ← eval values e
    let old ← ofValue? ((values.lookup v).getD [])
    let new ← operate? s old y
    some (new, (v, toValue new) :: values)

end Arithmetic

/-- The value of an expression; an empty one is zero. -/
def calculate (values : Arithmetic.Values) (s : List Char) : Option (Int × Arithmetic.Values) := do
  let ts ← Arithmetic.tokens (s.length + 1) s
  if ts.isEmpty then some (0, values)
  else do
    let (e, rest) ← Arithmetic.parse (4 * ts.length + 4) ts
    if rest.isEmpty then Arithmetic.eval values e else none

end Vigil.Script
