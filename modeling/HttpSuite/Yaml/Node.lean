import HttpSuite.Yaml.Token

/-!
# Nodes

A document is one node: a scalar, a sequence, a mapping, or an alias of a node that carries an
anchor.  An anchor is kept as a number, the number of different names that were used before it, so
an anchor that is used again may come to share its number with a later one; an alias stands for the
last node of its number.
-/

namespace HttpSuite.Yaml

inductive Node where
  /-- A scalar with its anchor, its whole tag, its text and whether it is plain. -/
  | scalar (anchor : Option Nat) (tag : Option (List UInt8)) (text : String) (plain : Bool)
  | alias (anchor : Nat)
  | sequence (anchor : Option Nat) (tag : Option (List UInt8)) (items : List Node)
  | mapping (anchor : Option Nat) (tag : Option (List UInt8)) (fields : List (Node × Node))

namespace Node

/-- The scalar of a place where nothing stands. -/
def empty : Node := .scalar none none "" true

mutual

/-- The number of scalars, aliases and ends of collections. -/
def size : Node → Nat
  | .scalar .. => 1
  | .alias _ => 1
  | .sequence _ _ items => sizeOfItems items + 2
  | .mapping _ _ fields => sizeOfFields fields + 2

private def sizeOfItems : List Node → Nat
  | [] => 0
  | item :: items => size item + sizeOfItems items

private def sizeOfFields : List (Node × Node) → Nat
  | [] => 0
  | (key, value) :: fields => size key + size value + sizeOfFields fields

end

mutual

/-- The nodes with an anchor in the order in which they begin. -/
def anchored : Node → List (Nat × Node)
  | .scalar anchor tag text plain => entry anchor (.scalar anchor tag text plain)
  | .alias _ => []
  | .sequence anchor tag items =>
    entry anchor (.sequence anchor tag items) ++ anchoredItems items
  | .mapping anchor tag fields =>
    entry anchor (.mapping anchor tag fields) ++ anchoredFields fields

private def anchoredItems : List Node → List (Nat × Node)
  | [] => []
  | item :: items => anchored item ++ anchoredItems items

private def anchoredFields : List (Node × Node) → List (Nat × Node)
  | [] => []
  | (key, value) :: fields => anchored key ++ anchored value ++ anchoredFields fields

private def entry (anchor : Option Nat) (node : Node) : List (Nat × Node) :=
  match anchor with
  | none => []
  | some n => [(n, node)]

end

/-! ## Reading nodes -/

/-- The tokens that are left and the numbers of the anchors so far. -/
structure Reader where
  tokens : List Token
  anchors : List (String × Nat)

namespace Reader

def rest (r : Reader) : Reader := { r with tokens := r.tokens.tail }

/-- The number of an anchor and the numbers after it. -/
def declare (name : String) (r : Reader) : Nat × Reader :=
  let number := r.anchors.length
  let known := r.anchors.any (·.1 == name)
  let anchors :=
    if known then r.anchors.map fun e => if e.1 == name then (name, number) else e
    else r.anchors ++ [(name, number)]
  (number, { r with anchors })

end Reader

/-- The anchor and the tag before a node, in either order. -/
structure Marks where
  anchor : Option String
  tag : Option Tag

private def marks (r : Reader) : Marks × Reader :=
  match r.tokens with
  | .anchor name :: .tag t :: rest => (⟨some name, some t⟩, { r with tokens := rest })
  | .tag t :: .anchor name :: rest => (⟨some name, some t⟩, { r with tokens := rest })
  | .anchor name :: rest => (⟨some name, none⟩, { r with tokens := rest })
  | .tag t :: rest => (⟨none, some t⟩, { r with tokens := rest })
  | _ => (⟨none, none⟩, r)

/-- The whole tag; its handle must be declared. -/
private def wholeTag? (handles : List (String × List UInt8)) (t : Tag) : Option (List UInt8) :=
  if t.handle = "" then some t.suffix
  else (handles.find? (·.1 == t.handle)).map fun h => h.2 ++ t.suffix

/-- The tag that leaves the type of a scalar open. -/
private def isOpenTag (tag : List UInt8) : Bool := tag == [33]

private def endsItem : List Token → Bool
  | .item :: _ => true
  | .blockEnd :: _ => true
  | _ => false

private def endsField : List Token → Bool
  | .key :: _ => true
  | .value :: _ => true
  | .blockEnd :: _ => true
  | _ => false

variable (handles : List (String × List UInt8))

mutual

/-- A node.  Blocks are read only if `block` holds; if `indentless` holds, items without a block of
their own are a sequence. -/
def read? (block indentless : Bool) : Nat → Reader → Option (Node × Reader)
  | 0, _ => none
  | fuel + 1, r =>
    match r.tokens with
    | .alias name :: _ => do
      let (_, number) ← r.anchors.find? (·.1 == name)
      return (.alias number, r.rest)
    | _ => do
      let (found, r) := marks r
      let tag ← match found.tag with
        | none => some none
        | some t => (wholeTag? handles t).map some
      let (anchor, r) := match found.anchor with
        | none => (none, r)
        | some name =>
          let (number, r) := r.declare name
          (some number, r)
      match r.tokens with
      | .item :: _ =>
        if indentless then do
          let (items, r) ← looseItems? fuel r
          return (.sequence anchor tag items, r)
        else bare anchor tag r
      | .scalar text plain :: _ =>
        let tag := tag.filter (!isOpenTag ·)
        return (.scalar anchor tag text plain, r.rest)
      | .openSequence :: _ => do
        let (items, r) ← bracketItems? true fuel r.rest
        return (.sequence anchor tag items, r)
      | .openMapping :: _ => do
        let (fields, r) ← bracketFields? true fuel r.rest
        return (.mapping anchor tag fields, r)
      | .blockSequence :: _ =>
        if block then do
          let (items, r) ← blockItems? fuel r.rest
          return (.sequence anchor tag items, r)
        else bare anchor tag r
      | .blockMapping :: _ =>
        if block then do
          let (fields, r) ← blockFields? fuel r.rest
          return (.mapping anchor tag fields, r)
        else bare anchor tag r
      | _ => bare anchor tag r

/-- An anchor or a tag where nothing else stands marks an empty scalar. -/
private def bare (anchor : Option Nat) (tag : Option (List UInt8)) (r : Reader) :
    Option (Node × Reader) :=
  if anchor.isSome || tag.isSome then some (.scalar anchor tag "" true, r) else none

/-- The items of a block up to its end. -/
def blockItems? : Nat → Reader → Option (List Node × Reader)
  | 0, _ => none
  | fuel + 1, r =>
    match r.tokens with
    | .blockEnd :: _ => some ([], r.rest)
    | .item :: _ => do
      let (item, r) ← if endsItem r.rest.tokens then some (.empty, r.rest)
        else read? true false fuel r.rest
      let (items, r) ← blockItems? fuel r
      return (item :: items, r)
    | _ => none

/-- The items that follow each other. -/
def looseItems? : Nat → Reader → Option (List Node × Reader)
  | 0, _ => none
  | fuel + 1, r =>
    match r.tokens with
    | .item :: _ => do
      let (item, r) ← if endsItem r.rest.tokens || endsField r.rest.tokens then
          some (.empty, r.rest)
        else read? true false fuel r.rest
      let (items, r) ← looseItems? fuel r
      return (item :: items, r)
    | _ => some ([], r)

/-- The fields of a block up to its end. -/
def blockFields? : Nat → Reader → Option (List (Node × Node) × Reader)
  | 0, _ => none
  | fuel + 1, r =>
    match r.tokens with
    | .blockEnd :: _ => some ([], r.rest)
    | .key :: _ => do
      let (key, r) ← if endsField r.rest.tokens then some (.empty, r.rest)
        else read? true true fuel r.rest
      let (value, r) ← match r.tokens with
        | .value :: _ =>
          if endsField r.rest.tokens then some (.empty, r.rest)
          else read? true true fuel r.rest
        | _ => some (.empty, r)
      let (fields, r) ← blockFields? fuel r
      return ((key, value) :: fields, r)
    | _ => none

/-- The items in brackets up to the closing one.  A key among them begins a mapping of one field. -/
def bracketItems? (first : Bool) : Nat → Reader → Option (List Node × Reader)
  | 0, _ => none
  | fuel + 1, r =>
    match r.tokens with
    | .closeSequence :: _ => some ([], r.rest)
    | _ => do
      let r ← if first then some r else afterComma r
      match r.tokens with
      | .closeSequence :: _ => return ([], r.rest)
      | .key :: next => do
        let r := r.rest
        let (key, r) ← match next with
          | .value :: _ => some (.empty, r.rest)
          | .comma :: _ => some (.empty, r.rest)
          | .closeSequence :: _ => some (.empty, r.rest)
          | _ => read? false false fuel r
        let (value, r) ← match r.tokens with
          | .value :: _ =>
            match r.rest.tokens with
            | .comma :: _ => some (.empty, r.rest)
            | .closeSequence :: _ => some (.empty, r.rest)
            | _ => read? false false fuel r.rest
          | _ => some (.empty, r)
        let (items, r) ← bracketItems? false fuel r
        return (.mapping none none [(key, value)] :: items, r)
      | _ => do
        let (item, r) ← read? false false fuel r
        let (items, r) ← bracketItems? false fuel r
        return (item :: items, r)

/-- The fields in braces up to the closing one.  A node that is no key is a key without a value. -/
def bracketFields? (first : Bool) : Nat → Reader → Option (List (Node × Node) × Reader)
  | 0, _ => none
  | fuel + 1, r =>
    match r.tokens with
    | .closeMapping :: _ => some ([], r.rest)
    | _ => do
      let r ← if first then some r else afterComma r
      match r.tokens with
      | .closeMapping :: _ => return ([], r.rest)
      | .key :: next => do
        let (key, r) ← match next with
          | .value :: _ => some (.empty, r.rest)
          | .comma :: _ => some (.empty, r.rest)
          | .closeMapping :: _ => some (.empty, r.rest)
          | _ => read? false false fuel r.rest
        let (value, r) ← match r.tokens with
          | .value :: _ =>
            match r.rest.tokens with
            | .comma :: _ => some (.empty, r.rest)
            | .closeMapping :: _ => some (.empty, r.rest)
            | _ => read? false false fuel r.rest
          | _ => some (.empty, r)
        let (fields, r) ← bracketFields? false fuel r
        return ((key, value) :: fields, r)
      | _ => do
        let (key, r) ← read? false false fuel r
        let (fields, r) ← bracketFields? false fuel r
        return ((key, .empty) :: fields, r)

private def afterComma (r : Reader) : Option Reader :=
  match r.tokens with
  | .comma :: _ => some r.rest
  | _ => none

end

end Node

/-! ## Documents -/

/-- The one document of a text; there is no node if the text holds comments only. -/
structure Document where
  root : Option Node

namespace Document

/-- The directives before a document.  Only one version is given and each handle once. -/
private def handles? (declared : List Directive) : Option (List (String × List UInt8)) := do
  let versions := declared.filterMap fun
    | .version major minor => some (major, minor)
    | .tag .. => none
  let tags := declared.filterMap fun
    | .version .. => none
    | .tag handle stands => some (handle, stands)
  if 1 < versions.length then none
  if versions.any (fun v => v != (1, 1) && v != (1, 2)) then none
  if !(tags.map (·.1)).Nodup then none
  return tags ++ [("!", [33]), ("!!", Utf8.encode "tag:yaml.org,2002:")]

private def directives : List Token → List Directive × List Token
  | .directive d :: rest =>
    let (ds, rest) := directives rest
    (d :: ds, rest)
  | tokens => ([], tokens)

private def isDocumentEnd : Token → Bool
  | .documentEnd => true
  | _ => false

private def endsDocument : List Token → Bool
  | [] => true
  | .documentEnd :: _ => true
  | .documentStart :: _ => true
  | .directive _ :: _ => true
  | _ => false

/-- The document of a list of tokens.  A second document is an error. -/
def ofTokens? (tokens : List Token) : Option Document := do
  if tokens.isEmpty then return ⟨none⟩
  let (declared, rest) := directives tokens
  let handles ← handles? declared
  let marked ← match rest with
    | .documentStart :: rest => some (true, rest)
    | rest => if declared.isEmpty then some (false, rest) else none
  let (root, r) ←
    if marked.1 && endsDocument marked.2 then some (Node.empty, ⟨marked.2, []⟩)
    else Node.read? handles true false (3 * tokens.length + 3) ⟨marked.2, []⟩
  if (r.tokens.dropWhile isDocumentEnd).isEmpty then return ⟨some root⟩ else none

def ofText? (text : String) : Option Document := (Token.ofText? text).bind ofTokens?

end Document

end HttpSuite.Yaml
