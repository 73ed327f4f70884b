import Vigil.Yaml.Tokens
/-! The one document of a YAML text as a tree. -/
namespace Vigil.Yaml

structure Scalar where
  style : Style
  /-- The tag in full, as bytes: an escape in a tag may stand for any. -/
  tag : Option (List UInt8) := none
  text : List Char
deriving DecidableEq, Repr

/-- Trees whose aliases name what they stand for by a `ρ`. -/
inductive Node (ρ : Type) where
  | alias (ref : ρ)
  | scalar (s : Scalar)
  | seq (items : List (Node ρ))
  | map (entries : List (Node ρ × Node ρ))
  | anchored (name : List Char) (node : Node ρ)
deriving Repr

/-- The expansions of tag handles. -/
abbrev Handles := List (List Char × List UInt8)

/-- What every document starts with. -/
def Handles.standard : Handles :=
  [(['!'], loneMark), (['!', '!'], Utf8.encodeText "tag:yaml.org,2002:")]

def nullTag : List UInt8 := Utf8.encodeText "tag:yaml.org,2002:null"

def integerTag : List UInt8 := Utf8.encodeText "tag:yaml.org,2002:int"

def expandTag? (handles : Handles) (handle : List Char) (suffix : List UInt8) :
    Option (List UInt8) :=
  if handle.isEmpty then some suffix else (handles.lookup handle).map (· ++ suffix)

/-- The node where nothing is written. -/
def untagged : Node (List Char) := .scalar { style := .plain, text := [] }

def anchor (name : Option (List Char)) (n : Node (List Char)) : Node (List Char) :=
  match name with
  | some name => .anchored name n
  | none => n

/-- An anchor and a tag, in either order, each at most once. -/
def properties (handles : Handles) :
    List Token → Option (Option (List Char) × Option (List UInt8) × List Token)
  | .anchor a :: .tag h s :: r => (expandTag? handles h s).map fun t => (some a, some t, r)
  | .tag h s :: .anchor a :: r => (expandTag? handles h s).map fun t => (some a, some t, r)
  | .anchor a :: r => some (some a, none, r)
  | .tag h s :: r => (expandTag? handles h s).map fun t => (none, some t, r)
  | r => some (none, none, r)

mutual

/-- One node. `inBlock` allows block collections, and `indentless` the entries of a sequence
that stands no deeper than its key. Every call takes one from the first argument. -/
def parseNode (handles : Handles) (inBlock indentless : Bool) :
    Nat → List Token → Option (Node (List Char) × List Token)
  | 0, _ => none
  | _ + 1, .alias name :: r => some (.alias name, r)
  | left + 1, ts => do
    let (name, tag, ts) ← properties handles ts
    match ts with
    | .scalar style text :: r => some (anchor name (.scalar { style, tag, text }), r)
    | .flowSeqStart :: r => do
      let (items, r) ← parseFlowSeq handles left true r
      some (anchor name (.seq items), r)
    | .flowMapStart :: r => do
      let (entries, r) ← parseFlowMap handles left true r
      some (anchor name (.map entries), r)
    | t :: r =>
      if t == .blockEntry && indentless then do
        let (items, r) ← parseIndentless handles left ts
        some (anchor name (.seq items), r)
      else if t == .blockSeqStart && inBlock then do
        let (items, r) ← parseBlockSeq handles left r
        some (anchor name (.seq items), r)
      else if t == .blockMapStart && inBlock then do
        let (entries, r) ← parseBlockMap handles left r
        some (anchor name (.map entries), r)
      else if name.isSome || tag.isSome then
        some (anchor name (.scalar { style := .plain, tag, text := [] }), ts)
      else none
    | [] =>
      if name.isSome || tag.isSome then
        some (anchor name (.scalar { style := .plain, tag, text := [] }), [])
      else none

def parseIndentless (handles : Handles) : Nat → List Token → Option (List (Node (List Char)) × List Token)
  | 0, _ => none
  | left + 1, .blockEntry :: r => do
    let (item, r) ←
      match r with
      | .blockEntry :: _ | .key :: _ | .value :: _ | .blockEnd :: _ => some (untagged, r)
      | _ => parseNode handles true false left r
    let (items, r) ← parseIndentless handles left r
    some (item :: items, r)
  | _ + 1, r => some ([], r)

def parseBlockSeq (handles : Handles) : Nat → List Token → Option (List (Node (List Char)) × List Token)
  | 0, _ => none
  | left + 1, .blockEntry :: r => do
    let (item, r) ←
      match r with
      | .blockEntry :: _ | .blockEnd :: _ => some (untagged, r)
      | _ => parseNode handles true false left r
    let (items, r) ← parseBlockSeq handles left r
    some (item :: items, r)
  | _ + 1, .blockEnd :: r => some ([], r)
  | _ + 1, _ => none

def parseBlockMap (handles : Handles) :
    Nat → List Token → Option ((List (Node (List Char) × Node (List Char))) × List Token)
  | 0, _ => none
  | left + 1, .key :: r => do
    let (key, r) ← parseBlockPart handles left r
    let (value, r) ←
      match r with
      | .value :: r => parseBlockPart handles left r
      | _ => some (untagged, r)
    let (entries, r) ← parseBlockMap handles left r
    some ((key, value) :: entries, r)
  | _ + 1, .blockEnd :: r => some ([], r)
  | _ + 1, _ => none

/-- The key or the value of a block mapping's entry, which may be left out. -/
def parseBlockPart (handles : Handles) : Nat → List Token → Option (Node (List Char) × List Token)
  | 0, _ => none
  | left + 1, r =>
    match r with
    | .key :: _ | .value :: _ | .blockEnd :: _ => some (untagged, r)
    | _ => parseNode handles true true left r

/-- Items up to the closing bracket. A key inside the brackets makes a mapping of one entry. -/
def parseFlowSeq (handles : Handles) :
    Nat → Bool → List Token → Option (List (Node (List Char)) × List Token)
  | 0, _, _ => none
  | _ + 1, _, .flowSeqEnd :: r => some ([], r)
  | left + 1, first, r => do
    let r ←
      match first, r with
      | true, r => some r
      | false, .flowEntry :: r => some r
      | false, _ => none
    match r with
    | .flowSeqEnd :: r => some ([], r)
    | .key :: r => do
      let (entry, r) ← parseFlowPair handles left r
      let (items, r) ← parseFlowSeq handles left false r
      some (.map [entry] :: items, r)
    | _ => do
      let (item, r) ← parseNode handles false false left r
      let (items, r) ← parseFlowSeq handles left false r
      some (item :: items, r)

/-- Where the key of a pair is left out, the token in its place is passed over. -/
def parseFlowPair (handles : Handles) :
    Nat → List Token → Option ((Node (List Char) × Node (List Char)) × List Token)
  | 0, _ => none
  | left + 1, r => do
    let (key, r) ←
      match r with
      | .value :: r | .flowEntry :: r | .flowSeqEnd :: r => some (untagged, r)
      | _ => parseNode handles false false left r
    match r with
    | .value :: r =>
      match r with
      | .flowEntry :: _ | .flowSeqEnd :: _ => some ((key, untagged), r)
      | _ => do
        let (value, r) ← parseNode handles false false left r
        some ((key, value), r)
    | _ => some ((key, untagged), r)

def parseFlowMap (handles : Handles) :
    Nat → Bool → List Token → Option ((List (Node (List Char) × Node (List Char))) × List Token)
  | 0, _, _ => none
  | _ + 1, _, .flowMapEnd :: r => some ([], r)
  | left + 1, first, r => do
    let r ←
      match first, r with
      | true, r => some r
      | false, .flowEntry :: r => some r
      | false, _ => none
    match r with
    | .flowMapEnd :: r => some ([], r)
    | .key :: r => do
      let (key, r) ← parseFlowPart handles left r
      let (value, r) ←
        match r with
        | .value :: r => parseFlowPart handles left r
        | _ => some (untagged, r)
      let (entries, r) ← parseFlowMap handles left false r
      some ((key, value) :: entries, r)
    | _ => do
      let (key, r) ← parseNode handles false false left r
      let (entries, r) ← parseFlowMap handles left false r
      some ((key, untagged) :: entries, r)

/-- The key or the value of a flow mapping's entry, which may be left out. -/
def parseFlowPart (handles : Handles) : Nat → List Token → Option (Node (List Char) × List Token)
  | 0, _ => none
  | left + 1, r =>
    match r with
    | .value :: _ | .flowEntry :: _ | .flowMapEnd :: _ => some (untagged, r)
    | _ => parseNode handles false false left r

end

/-- The directives in front of a document. A version has to be 1.1 or 1.2. -/
def directives (seenVersion : Bool) (handles : Handles) :
    List Token → Option (Bool × Handles × List Token)
  | .version major minor :: r =>
    if !seenVersion && major == 1 && (minor == 1 || minor == 2) then directives true handles r
    else none
  | .tagHandle handle expansion :: r =>
    if (handles.lookup handle).isSome then none
    else directives seenVersion (handles ++ [(handle, expansion)]) r
  | r => some (seenVersion, handles, r)

/-- Every call takes a token or is the only one between two that do. -/
def enough (ts : List Token) : Nat := 3 * ts.length + 4

/-- The document that all the tokens make up; `none` where there is none or more than one. -/
def documentOf? (ts : List Token) : Option (Node (List Char)) := do
  let (version, own, r) ← directives false [] ts
  let handles := own ++ Handles.standard
  let (node, r) ←
    match r with
    | .documentStart :: r =>
      match r with
      | [] | .documentStart :: _ | .documentEnd :: _ | .version _ _ :: _ | .tagHandle _ _ :: _ =>
        some (untagged, r)
      | _ => parseNode handles true false (enough r) r
    | [] => none
    | _ => if version || !own.isEmpty then none else parseNode handles true false (enough r) r
  if r.all (· == .documentEnd) then some node else none

end Vigil.Yaml
