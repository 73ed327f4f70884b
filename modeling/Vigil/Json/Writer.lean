import Vigil.Json.Value
import Vigil.Text.Number
/-! JSON texts: on one line, or a line for each item two columns further in. -/
namespace Vigil.Json

/-- Only quotes, backslashes and control characters below U+0020 are escaped. -/
def escapeChar (c : Char) : List Char :=
  let n := c.toNat
  if n == 0x22 || n == 0x5C then ['\\', c]
  else if n == 8 then ['\\', 'b']
  else if n == 9 then ['\\', 't']
  else if n == 10 then ['\\', 'n']
  else if n == 12 then ['\\', 'f']
  else if n == 13 then ['\\', 'r']
  else if n < 0x20 then '\\' :: 'u' :: '0' :: '0' :: Text.hexByte n
  else [c]

def quote (s : String) : List Char := '\x22' :: (s.toList.flatMap escapeChar ++ ['\x22'])

def indentation (depth : Nat) : List Char := List.replicate (2 * depth) ' '

def scalarText : Value → List Char
  | .null => ['n', 'u', 'l', 'l']
  | .bool true => ['t', 'r', 'u', 'e']
  | .bool false => ['f', 'a', 'l', 's', 'e']
  | .int n => Text.decimalInt n
  | .str s => quote s
  | .verbatim text => text.toList
  | .arr _ => ['[', ']']
  | .obj _ => ['{', '}']

mutual

def compact : Value → List Char
  | .arr (x :: xs) => '[' :: (compact x ++ compactItems xs)
  | .obj ((k, v) :: fs) => '{' :: (quote k ++ ':' :: (compact v ++ compactFields fs))
  | v => scalarText v

def compactItems : List Value → List Char
  | [] => [']']
  | x :: xs => ',' :: (compact x ++ compactItems xs)

def compactFields : List (String × Value) → List Char
  | [] => ['}']
  | (k, v) :: fs => ',' :: (quote k ++ ':' :: (compact v ++ compactFields fs))

end

def newLine (depth : Nat) : List Char := '\n' :: indentation depth

mutual

def prettyAt (depth : Nat) : Value → List Char
  | .arr (x :: xs) => '[' :: (newLine (depth + 1) ++ prettyAt (depth + 1) x ++ prettyItems depth xs)
  | .obj ((k, v) :: fs) =>
    '{' :: (newLine (depth + 1) ++ quote k ++ ':' :: ' ' :: (prettyAt (depth + 1) v ++
      prettyFields depth fs))
  | v => scalarText v

def prettyItems (depth : Nat) : List Value → List Char
  | [] => newLine depth ++ [']']
  | x :: xs => ',' :: (newLine (depth + 1) ++ prettyAt (depth + 1) x ++ prettyItems depth xs)

def prettyFields (depth : Nat) : List (String × Value) → List Char
  | [] => newLine depth ++ ['}']
  | (k, v) :: fs =>
    ',' :: (newLine (depth + 1) ++ quote k ++ ':' :: ' ' :: (prettyAt (depth + 1) v ++
      prettyFields depth fs))

end

def pretty (v : Value) : List Char := prettyAt 0 v

end Vigil.Json
