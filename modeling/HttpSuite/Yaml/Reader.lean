import HttpSuite.Yaml.Node
import HttpSuite.Yaml.Scalar

/-!
# The value of a document

Reading a node follows its aliases, so a node may be read many times over; the number of aliases
that are followed is bounded by a hundred times the size of the document, and the nesting of
sequences and mappings by 128.  Keys of mappings are scalars and count by their text; of two equal
keys the later one gives the value and the first one the place.
-/

namespace HttpSuite

namespace Yaml

/-- Reads with a number of aliases that may still be followed. -/
abbrev ReadM := StateT Nat Option

/-- The deepest nesting of sequences and mappings. -/
def maxDepth : Nat := 128

private def coreTag (name : String) : List UInt8 := Utf8.encode ("tag:yaml.org,2002:" ++ name)

/-- A local tag, which has no value. -/
private def isLocal (tag : Option (List UInt8)) : Bool :=
  match tag with
  | some (33 :: rest) => (Utf8.text? rest).isSome
  | _ => false

/-- The value of a scalar.  The tags of the standard types ask for their spelling, any other tag
makes it a string. -/
private def scalarValue? (tag : Option (List UInt8)) (text : String) (plain : Bool) :
    Option Value :=
  let untagged := if plain then Scalar.value? text else some (.string text)
  match tag with
  | none => untagged
  | some tag =>
    if tag = coreTag "bool" then (Scalar.bool? text).map Value.bool
    else if tag = coreTag "int" then (Scalar.int? text).bind Scalar.intValue?
    else if tag = coreTag "float" then Scalar.float? text
    else if tag = coreTag "null" then if Scalar.isNull text then some .null else none
    else if tag.head? = some 33 then untagged
    else some (.string text)

namespace Document

/-- The node that an alias stands for, or the node itself. -/
def follow (anchored : List (Nat × Node)) (node : Node) : ReadM Node :=
  match node with
  | .alias anchor => do
    let left ← get
    if left = 0 then failure
    set (left - 1)
    match anchored.findRev? (·.1 == anchor) with
    | some (_, node) => return node
    | none => failure
  | node => return node

variable (anchored : List (Nat × Node))

/-- The text of a key. -/
private def key (node : Node) : ReadM String := do
  match ← follow anchored node with
  | .scalar _ _ text _ => return text
  | _ => failure

/-- The fields of a mapping in order, each value read by `inner`. -/
private def fields {α : Type} (inner : String → Node → ReadM α) (entries : List (Node × Node)) :
    ReadM (List (String × α)) :=
  entries.mapM fun (k, v) => do
    let name ← key anchored k
    return (name, ← inner name v)

/-- The value of a node, given how the nodes inside it are read, if it may hold any. -/
private def valueWith (inner : Option (Node → ReadM Value)) (node : Node) : ReadM Value := do
  match ← follow anchored node with
  | .scalar _ tag text plain =>
    if isLocal tag then failure
    match scalarValue? tag text plain with
    | some v => return v
    | none => failure
  | .alias _ => failure
  | .sequence _ tag items =>
    match inner with
    | none => failure
    | some inner => if isLocal tag then failure else return .array (← items.mapM inner)
  | .mapping _ tag entries =>
    match inner with
    | none => failure
    | some inner =>
      if isLocal tag then failure
      else return .object (Entries.ofList (← fields anchored (fun _ => inner) entries))

/-- The value of a node in which sequences and mappings are nested at most so deep. -/
def value : Nat → Node → ReadM Value
  | 0 => valueWith anchored none
  | depth + 1 => valueWith anchored (some (value depth))

/-- Whether nothing stands in the place of a node. -/
private def isBare : Node → Bool
  | .scalar _ _ text plain => text.isEmpty && plain
  | _ => false

/-- The fields of a node that is read as a mapping; where nothing stands there are none. -/
def mapping (depth : Nat) (node : Node) : ReadM Mapping := do
  match ← follow anchored node with
  | .mapping _ _ entries =>
    if depth = 0 then failure
    else
      return Entries.ofList (← fields anchored (fun _ => value anchored (depth - 1)) entries)
  | node => if isBare node then return [] else failure

/-- The parts of a node that is read as a record of mappings: the fields, repetitions kept, or the
items of a sequence. -/
def parts (depth : Nat) (node : Node) : ReadM (List (String × Mapping) ⊕ List Mapping) := do
  match ← follow anchored node with
  | .mapping _ _ entries =>
    return .inl (← fields anchored (fun _ => mapping anchored (depth - 1)) entries)
  | .sequence _ _ items => return .inr (← items.mapM (mapping anchored (depth - 1)))
  | node => if isBare node then return .inl [] else failure

/-- Runs a reading of the document's node; a document without a node reads as `bare`. -/
def read? {α : Type} (doc : Document) (bare : α) (reading : List (Nat × Node) → Node → ReadM α) :
    Option α :=
  match doc.root with
  | none => some bare
  | some root => ((reading root.anchored root).run (100 * root.size)).map (·.1)

end Document

end Yaml

/-- The value of a YAML text of at most one document. -/
def Value.ofYaml? (text : String) : Option Value := do
  let doc ← Yaml.Document.ofText? text
  doc.read? .null fun anchored => Yaml.Document.value anchored Yaml.maxDepth

end HttpSuite
