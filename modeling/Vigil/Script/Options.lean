import Vigil.Script.Job
/-! The options of a script, which it reads one after the other. -/
namespace Vigil.Script

/-- What a letter is among the options that are expected. -/
inductive OptionKind where
  | unknown | alone | valued
deriving DecidableEq

/-- A colon behind a letter asks for a value. -/
def OptionKind.ofLetter (c : Char) : List Char → OptionKind
  | [] => unknown
  | d :: r =>
    if d == c && c != ':' then if r.head? == some ':' then valued else alone
    else ofLetter c r

/-- What is left of the option words: the characters of this one, and the index of the next. Where
no option follows there is only an index. -/
def optionRest (p : Job) (args : List (List Char)) : Option (List Char) × Nat :=
  let index := if args.length + 1 < p.optionIndex then 1 else p.optionIndex
  let begun := match p.optionAt with
    | some k => if 1 < index then ((args[index - 2]?).getD []).drop k else []
    | none => []
  if !begun.isEmpty then (some begun, index)
  else match args[index - 1]? with
    | some ['-', '-'] => (none, index + 1)
    | some ('-' :: c :: r) => (some (c :: r), index + 1)
    | _ => (none, index)

/-- Reads the next option. A colon in front of the letters keeps complaints back. -/
def readOption (p : Job) (expected name : List Char) (args : List (List Char)) : Job :=
  let quiet := expected.head? == some ':'
  let put (p : Job) (result : List Char) (index : Nat) (at_ : Option Nat) : Job :=
    let p := (p.setValue "OPTIND".toList (Text.decimal index)).assign name result
    { p with optionIndex := index, optionAt := at_ }
  let value (p : Job) (v : List Char) : Job := p.setValue "OPTARG".toList v
  let wrong (p : Job) (c : Char) (s : String) : Job :=
    if quiet then value p [c]
    else (p.dropValue "OPTARG".toList).complain 0 (s.replace "?" (String.ofList [c]))
  match optionRest p args with
  | (none, index) => { put p ['?'] index none with status := 1 }
  | (some [], index) => { put p ['?'] index none with status := 1 }
  | (some (c :: r), index) =>
    let length := ((args[index - 2]?).getD []).length
    let here := some (length - r.length)
    let p := { p with status := 0 }
    match OptionKind.ofLetter c expected with
    | .unknown => put (wrong p c "Illegal option -?") ['?'] index here
    | .alone => put (value p []) [c] index here
    | .valued =>
      if !r.isEmpty then put (value p r) [c] index none
      else match args[index - 1]? with
        | some v => put (value p v) [c] (index + 1) none
        | none => put (wrong p c "No arg for -? option") [if quiet then ':' else '?'] index here

end Vigil.Script
