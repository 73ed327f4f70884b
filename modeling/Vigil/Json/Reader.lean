import Vigil.Json.Value
import Vigil.Text.Number
/-! Reading a JSON text. -/
namespace Vigil.Json

def isSpace (c : Char) : Bool := c == ' ' || c == '\n' || c == '\t' || c == '\r'

def skipSpace (s : List Char) : List Char := s.dropWhile isSpace

/-- What was taken off the front of `s` to leave `rest`. -/
def taken (s rest : List Char) : List Char := s.take (s.length - rest.length)

def strip? : List Char → List Char → Option (List Char)
  | [], s => some s
  | w :: ws, c :: s => if w == c then strip? ws s else none
  | _ :: _, [] => none

def hex4? : List Char → Option (Nat × List Char)
  | a :: b :: c :: d :: r => do
    let a ← digit? 16 a
    let b ← digit? 16 b
    let c ← digit? 16 c
    let d ← digit? 16 d
    some (((a * 16 + b) * 16 + c) * 16 + d, r)
  | _ => none

def letterEscape? (c : Char) : Option Char :=
  if c == '\x22' || c == '\\' || c == '/' then some c
  else if c == 'b' then some '\x08'
  else if c == 'f' then some '\x0c'
  else if c == 'n' then some '\n'
  else if c == 'r' then some '\r'
  else if c == 't' then some '\t'
  else none

/-- Characters of a string and units of UTF-16 that were escaped. -/
inductive Piece where
  | char (c : Char)
  | unit (n : Nat)

/-- The pieces of a string up to its closing quote. Each call takes one from the first
argument. -/
def piecesFrom (done : List Piece) : Nat → List Char → Option (List Piece × List Char)
  | 0, _ => none
  | _ + 1, [] => none
  | left + 1, c :: r =>
    if c == '\x22' then some (done.reverse, r)
    else if c.toNat < 0x20 then none
    else if c == '\\' then
      match r with
      | [] => none
      | e :: r =>
        if e == 'u' then
          match hex4? r with
          | some (n, r) => piecesFrom (.unit n :: done) left r
          | none => none
        else match letterEscape? e with
          | some x => piecesFrom (.char x :: done) left r
          | none => none
    else piecesFrom (.char c :: done) left r

def isHigh (n : Nat) : Bool := 0xD800 ≤ n && n ≤ 0xDBFF
def isLow (n : Nat) : Bool := 0xDC00 ≤ n && n ≤ 0xDFFF

/-- Two surrogates in order make a character; one alone makes none. -/
def joinPieces : List Piece → Option (List Char)
  | [] => some []
  | .char c :: r => (joinPieces r).map (c :: ·)
  | .unit h :: .unit l :: r =>
    if isHigh h then
      if isLow l then
        (joinPieces r).map (Char.ofNat (0x10000 + (h - 0xD800) * 1024 + (l - 0xDC00)) :: ·)
      else none
    else if isLow h then none
    else (joinPieces (.unit l :: r)).map (Char.ofNat h :: ·)
  | .unit n :: r =>
    if isHigh n || isLow n then none else (joinPieces r).map (Char.ofNat n :: ·)

/-- A string behind its opening quote; no text where a surrogate stands alone. -/
def string? (s : List Char) : Option (Option String × List Char) :=
  (piecesFrom [] (s.length + 1) s).map fun (ps, r) => ((joinPieces ps).map String.ofList, r)

/-- A number: no zeros in front, and digits behind a point and in an exponent. -/
def number? (s : List Char) : Option (Value × List Char) := do
  let (negative, body) :=
    match s with
    | '-' :: r => (true, r)
    | _ => (false, s)
  let whole := body.takeWhile Char.isDigit
  if whole.isEmpty || (whole.head? == some '0' && whole.length != 1) then none
  else
    let n ← Text.digits? 10 whole
    let r := body.drop whole.length
    let (hasPoint, places, r) :=
      match r with
      | '.' :: q => (true, q.takeWhile Char.isDigit, q.dropWhile Char.isDigit)
      | _ => (false, [], r)
    if hasPoint && places.isEmpty then none
    else
      let (hasPower, power, r) :=
        match r with
        | e :: q =>
          if e == 'e' || e == 'E' then
            let q := match q with
              | x :: t => if x == '+' || x == '-' then t else q
              | [] => q
            (true, q.takeWhile Char.isDigit, q.dropWhile Char.isDigit)
          else (false, [], r)
        | [] => (false, [], r)
      if hasPower && power.isEmpty then none
      else if hasPoint || hasPower || (negative && n == 0) then
        some (.verbatim (String.ofList (taken s r)), r)
      else some (.int (if negative then -(n : Int) else n), r)

mutual

/-- One value, with blanks allowed in front. Each call takes one from the first argument. -/
def value? : Nat → List Char → Option (Value × List Char)
  | 0, _ => none
  | left + 1, s =>
    let s := skipSpace s
    match s with
    | [] => none
    | c :: r =>
      if c == 'n' then (strip? ['u', 'l', 'l'] r).map (.null, ·)
      else if c == 't' then (strip? ['r', 'u', 'e'] r).map (.bool true, ·)
      else if c == 'f' then (strip? ['a', 'l', 's', 'e'] r).map (.bool false, ·)
      else if c == '\x22' then
        (string? r).map fun (t, q) =>
          ((t.map Value.str).getD (.verbatim (String.ofList (taken s q))), q)
      else if c == '[' then
        match skipSpace r with
        | ']' :: q => some (.arr [], q)
        | _ => (items? left r).map fun (xs, q) => (.arr xs, q)
      else if c == '{' then
        match skipSpace r with
        | '}' :: q => some (.obj [], q)
        | _ => (fields? left r).map fun (fs, q) =>
          ((fs.map Value.obj).getD (.verbatim (String.ofList (taken s q))), q)
      else number? s

def items? : Nat → List Char → Option (List Value × List Char)
  | 0, _ => none
  | left + 1, s => do
    let (x, r) ← value? left s
    match skipSpace r with
    | ']' :: q => some ([x], q)
    | ',' :: q => (items? left q).map fun (xs, q) => (x :: xs, q)
    | _ => none

/-- The fields of an object; none of them where a key has no text. -/
def fields? : Nat → List Char → Option (Option (List (String × Value)) × List Char)
  | 0, _ => none
  | left + 1, s => do
    match skipSpace s with
    | '\x22' :: r => do
      let (k, r) ← string? r
      match skipSpace r with
      | ':' :: r => do
        let (v, r) ← value? left r
        let field := k.map fun k => (k, v)
        match skipSpace r with
        | '}' :: q => some (field.map ([·]), q)
        | ',' :: q => do
          let (fs, q) ← fields? left q
          some (field.bind fun f => fs.map (f :: ·), q)
        | _ => none
      | _ => none
    | _ => none

end

/-- The value a text holds, with nothing but blanks around it. -/
def read? (s : List Char) : Option Value := do
  let (v, r) ← value? (2 * s.length + 2) s
  if (skipSpace r).isEmpty then some v else none

end Vigil.Json
