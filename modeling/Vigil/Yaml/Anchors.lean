import Vigil.Yaml.Node
/-! What aliases stand for. An anchor is numbered by the distinct names before it, and an alias
by the anchor of its name in front of it; of two anchors of one number the later one counts. -/
namespace Vigil.Yaml

structure Anchors where
  /-- The number of each name seen, a name's latest first. -/
  numbers : List (List Char × Nat) := []
  /-- How many distinct names have been seen. -/
  distinct : Nat := 0
  /-- What each number stands for, the latest first. -/
  nodes : List (Nat × Node Nat) := []

namespace Anchors

/-- The number the next anchor gets, and the names seen with it. -/
def declare (a : Anchors) (name : List Char) : Nat × Anchors :=
  let known := (a.numbers.lookup name).isSome
  (a.distinct, { a with
    numbers := (name, a.distinct) :: a.numbers
    distinct := if known then a.distinct else a.distinct + 1 })

def bind (a : Anchors) (number order : Nat) (n : Node Nat) : Anchors :=
  { a with nodes := a.nodes.take (a.nodes.length - order) ++ (number, n) :: a.nodes.drop (a.nodes.length - order) }

end Anchors

mutual

/-- Numbers every alias, in the order the text has them; an unknown name is refused. -/
def number (a : Anchors) : Node (List Char) → Option (Node Nat × Anchors)
  | .alias name => (a.numbers.lookup name).map fun n => (.alias n, a)
  | .scalar s => some (.scalar s, a)
  | .seq items => do
    let (items, a) ← numberItems a items
    some (.seq items, a)
  | .map entries => do
    let (entries, a) ← numberEntries a entries
    some (.map entries, a)
  | .anchored name node => do
    let (n, a) := a.declare name
    let order := a.nodes.length
    let (node, a) ← number a node
    some (node, a.bind n order node)

def numberItems (a : Anchors) : List (Node (List Char)) → Option (List (Node Nat) × Anchors)
  | [] => some ([], a)
  | item :: items => do
    let (item, a) ← number a item
    let (items, a) ← numberItems a items
    some (item :: items, a)

def numberEntries (a : Anchors) :
    List (Node (List Char) × Node (List Char)) → Option (List (Node Nat × Node Nat) × Anchors)
  | [] => some ([], a)
  | (key, value) :: entries => do
    let (key, a) ← number a key
    let (value, a) ← number a value
    let (entries, a) ← numberEntries a entries
    some ((key, value) :: entries, a)

end

/-- A document whose aliases can be followed. -/
structure Document where
  root : Node Nat
  nodes : List (Nat × Node Nat)

/-- The scalar a node is, itself or by an alias. -/
def Document.scalar? (d : Document) : Node Nat → Option Scalar
  | .scalar s => some s
  | .alias n =>
    match d.nodes.lookup n with
    | some (.scalar s) => some s
    | _ => none
  | _ => none

def read? (s : List Char) : Option Document := do
  let ts ← tokens? s
  let node ← documentOf? ts
  let (root, a) ← number {} node
  some ⟨root, a.nodes⟩

end Vigil.Yaml
