import Vigil.Script.Arithmetic
import Vigil.Script.Job
import Vigil.Script.Pattern
/-! What the words of a script stand for when they are used. -/
namespace Vigil.Script

/-- Where a character comes from. Only what was put in for something else is cut at blanks. -/
inductive Origin where
  | quoted | written | filled
deriving DecidableEq

/-- A character of a word that is being read, or the trace of quotes with nothing between. -/
abbrev Cell := Option Char × Origin

/-- A script that is called for what it says. -/
abbrev Inner := Job → List Char → Job × List Char

namespace Expansion

def cells (origin : Origin) (s : List Char) : List Cell := s.map fun c => (some c, origin)

def trace : List Cell := [(none, .quoted)]

def plain (cs : List Cell) : List Char := cs.filterMap (·.1)

/-- Two runs of words, of which the last and the first grow together. -/
def join (a b : List (List Cell)) : List (List Cell) :=
  match a.getLast?, b with
  | some x, y :: r => a.dropLast ++ (x ++ y) :: r
  | none, b => b
  | _, [] => a

def separators (p : Job) : List Char := (p.values.lookup "IFS".toList).getD [' ', '\t', '\n']

/-- Several values in one word or, quoted or not, each in its own. -/
def several (p : Job) (quoted apart : Bool) : List (List Cell) :=
  if quoted && !apart then
    [trace ++ cells .quoted ((separators p).take 1 |>.intercalate p.args)]
  else p.args.map fun a => if quoted then trace ++ cells .quoted a else cells .filled a

def trimLines (s : List Char) : List Char := (s.reverse.dropWhile (· == '\n')).reverse

def signs (cs : List Cell) : List Sign :=
  cs.filterMap fun x => x.1.map fun c => (c, x.2 != .quoted)

/-- A text in place of a piece. -/
def filled (quoted : Bool) (s : List Char) : List (List Cell) :=
  if quoted then [trace ++ cells .quoted s] else [cells .filled s]

/-- The cells of all pieces, one after the other. -/
def ofPieces (one : Job → Piece → Job × List (List Cell)) (p : Job) (w : Word) :
    Job × List (List Cell) :=
  w.foldl (fun (p, acc) x =>
    let (p, cs) := one p x
    (p, join acc cs)) (p, [])

/-- One text of all cells. -/
def flat (fields : List (List Cell)) : List Char := [' '].intercalate (fields.map plain)

/-- Words within braces count as put in. -/
def within (quoted : Bool) (fields : List (List Cell)) : List (List Cell) :=
  fields.map fun f => f.map fun x =>
    if quoted then (x.1, Origin.quoted) else if x.2 == .written then (x.1, .filled) else x

def ofPiece (inner : Inner) : Nat → Job → Piece → Job × List (List Cell)
  | 0, p, _ => (p, [])
  | _ + 1, p, .text quoted s =>
    (p, [if quoted then trace ++ cells .quoted s else cells .written s])
  | _ + 1, p, .output quoted script =>
    let (p, s) := inner p script
    (p, filled quoted (trimLines s))
  | n + 1, p, .number quoted expression =>
    let (p, fields) := ofPieces (ofPiece inner n) p expression
    match calculate p.values (flat fields) with
    | some (v, values) => ({ p with values }, filled quoted (Arithmetic.toValue v))
    | none => ((p.refuse 2 "arithmetic expression: expecting primary").leave 2, [])
  | n + 1, p, .value quoted name change word =>
    let old := p.value? name
    let word (p : Job) := ofPieces (ofPiece inner n) p word
    let isThere (orEmpty : Bool) : Bool := old.any fun v => !(orEmpty && v.isEmpty)
    let keep : Job × List (List Cell) :=
      if name == ['@'] || name == ['*'] then (p, several p quoted (name == ['@']))
      else match old with
        | some v => (p, filled quoted v)
        | none =>
          if p.hasOption 'u' && !(name.all isSign) then
            ((p.refuse 2 (String.ofList name ++ ": parameter not set")).leave 2, [])
          else (p, filled quoted [])
    match change with
    | .keep => keep
    | .length => (p, filled quoted (Text.decimal (Utf8.encode (old.getD [])).length))
    | .orElse orEmpty =>
      if isThere orEmpty then keep
      else
        let (p, fields) := word p
        (p, within quoted (if quoted && fields.isEmpty then [trace] else fields))
    | .orAssign orEmpty =>
      if isThere orEmpty then keep
      else
        let (p, fields) := word p
        (p.assign name (flat fields), filled quoted (flat fields))
    | .orComplain orEmpty =>
      if isThere orEmpty then keep
      else
        let (p, fields) := word p
        let reason := if fields.isEmpty then "parameter not set" else String.ofList (flat fields)
        ((p.refuse 2 (String.ofList name ++ ": " ++ reason)).leave 2, [])
    | .instead orEmpty =>
      if isThere orEmpty then
        let (p, fields) := word p
        (p, within quoted fields)
      else (p, filled quoted [])
    | .cutFront longest =>
      let (p, fields) := word p
      (p, filled quoted (cutFront longest (fields.flatMap signs) (old.getD [])))
    | .cutBack longest =>
      let (p, fields) := word p
      (p, filled quoted (cutBack longest (fields.flatMap signs) (old.getD [])))

/-- Words within words within words. -/
def depth : Nat := 100

/-- A tilde in front stands for the user's directory. -/
def untilde (p : Job) (w : Word) : Word :=
  match w with
  | .text false ['~'] :: rest =>
    let alone := match rest with
      | [] | .text false ['/'] :: _ => true
      | _ => false
    match p.values.lookup "HOME".toList with
    | some home => if alone then .text true home :: rest else w
    | none => w
  | _ => w

/-- The cutting of cells into words, character by character. -/
structure Cutting where
  fields : List (List Cell) := []
  current : Option (List Cell) := none
  behindBlank : Bool := false

def Cutting.step (ifs : List Char) (k : Cutting) (x : Cell) : Cutting :=
  let between := x.2 == .filled && (x.1.any fun c => ifs.contains c)
  if between then
    let blank := x.1.any fun c => c == ' ' || c == '\t' || c == '\n'
    match k.current with
    | some f => { fields := k.fields ++ [f], behindBlank := blank }
    | none =>
      if blank then k
      else if k.behindBlank then { fields := k.fields }
      else { fields := k.fields ++ [[]] }
  else { fields := k.fields, current := some (k.current.getD [] ++ [x]) }

def cut (ifs : List Char) (cs : List Cell) : List (List Cell) :=
  let k := cs.foldl (Cutting.step ifs) {}
  k.fields ++ k.current.toList

/-- A pattern's parts between slashes. -/
def parts : List Sign → List (List Sign)
  | [] => [[]]
  | (c, special) :: r =>
    if c == '/' then [] :: parts r
    else match parts r with
      | [] => [[(c, special)]]
      | x :: xs => ((c, special) :: x) :: xs

/-- The paths that a pattern's parts lead to, behind what the path so far leads to. -/
def pathsFrom (p : Job) (before : String) : List (List Sign) → List String
  | [] => [before]
  | part :: rest =>
    let text := String.ofList (part.map (·.1))
    let put (name : String) := before ++ name ++ (if rest.isEmpty then "" else "/")
    if !hasSpecial part then
      let path := put text
      if text.isEmpty || (p.tree.find (p.rooted path)).toOption.isSome then
        pathsFrom p path rest
      else []
    else match p.tree.find (p.rooted (if before.isEmpty then "." else before)) with
      | .ok (place, .dir) =>
        let hidden := text.toList.head? == some '.'
        ((p.namesIn place).filter fun name =>
          (hidden || name.toList.head? != some '.') && fits part name.toList).flatMap fun name =>
            let path := put name
            if rest.isEmpty || p.tree.isDirectory (p.rooted path) then pathsFrom p path rest else []
      | _ => []

/-- A pattern stands for the paths that fit it, or for itself where there are none. -/
def paths (p : Job) (cs : List Cell) : List String :=
  let text := String.ofList (plain cs)
  if p.hasOption 'f' || !hasSpecial (signs cs) then [text]
  else match pathsFrom p "" (parts (signs cs)) with
    | [] => [text]
    | found => found

end Expansion

open Expansion

/-- The words that a word stands for. -/
def fieldsOf (inner : Inner) (p : Job) (w : Word) : Job × List String :=
  let (p, fields) := ofPieces (ofPiece inner depth) p (untilde p w)
  (p, (fields.flatMap (cut (separators p))).flatMap (paths p))

def allFieldsOf (inner : Inner) (p : Job) (ws : List Word) : Job × List String :=
  ws.foldl (fun (p, acc) w =>
    let (p, fields) := fieldsOf inner p w
    (p, acc ++ fields)) (p, [])

/-- The one text that a word stands for. -/
def valueOf (inner : Inner) (p : Job) (w : Word) : Job × List Char :=
  let (p, fields) := ofPieces (ofPiece inner depth) p (untilde p w)
  (p, flat fields)

def patternOf (inner : Inner) (p : Job) (w : Word) : Job × List Sign :=
  let (p, fields) := ofPieces (ofPiece inner depth) p (untilde p w)
  (p, fields.flatMap signs)

end Vigil.Script
