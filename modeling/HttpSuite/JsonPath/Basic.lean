import HttpSuite.Regex.Reader
import HttpSuite.Value.Compare

/-!
# Path expressions over values

A path is a chain of selectors.  Each takes what has been selected so far, one by one, and gives
what it selects from there; a selector that finds nothing gives the mark `missing`, so that a length
at the end of a chain can tell nothing from something.
-/

namespace HttpSuite.JsonPath

/-- The comparison of a condition. -/
inductive Sign where
  | equal
  | unequal
  | pattern
  | atLeast
  | above
  | atMost
  | below
  | inside
  | notInside
  | size
  | noneOf
  | anyOf
  | subsetOf
  | exists

mutual

inductive Selector where
  /-- The whole document. -/
  | root
  /-- The element under a condition and a chain from there. -/
  | current (chain : List Selector)
  | field (key : String)
  /-- The field of a key in every mapping below and in the value itself. -/
  | descend (key : String)
  /-- Everything below a value. -/
  | descendAll
  /-- Every item or field. -/
  | wildcard
  | index (i : Nat)
  | slice (first last : Int) (step : Nat)
  | indices (is : List Value)
  | fields (keys : List String)
  | filter (condition : Condition)
  /-- The number of items selected, or of the items of an array. -/
  | length

inductive Condition where
  | test (left : Operand) (sign : Sign) (right : Operand)
  | both (a b : Condition)
  | either (a b : Condition)
  | negation (a : Condition)

inductive Operand where
  | literal (v : Value)
  | path (chain : List Selector)

end

/-- What a selector gives: a part of the document, a computed value, or the mark of nothing. -/
inductive Match where
  | found (v : Value)
  | computed (v : Value)
  | missing

namespace Match

def value? : Match → Option Value
  | found v => some v
  | computed v => some v
  | missing => none

/-- The values found in an optional value. -/
def ofOption : Option Value → Match
  | some v => found v
  | none => missing

/-- Matches, or the mark of nothing. -/
def all : List Value → List Match
  | [] => [missing]
  | vs => vs.map found

end Match

/-! ## Descent -/

mutual

/-- Everything below a value, each value before what is below it. -/
def below : Value → List Value
  | .array items => belowItems items
  | .object fields => belowFields fields
  | _ => []

def belowItems : List Value → List Value
  | [] => []
  | v :: rest => v :: (below v ++ belowItems rest)

def belowFields : List (String × Value) → List Value
  | [] => []
  | (_, v) :: rest => v :: (below v ++ belowFields rest)

end

/-- The fields of a key in a value and in everything below it. -/
def descendants (key : String) (v : Value) : List Value :=
  (v :: below v).filterMap (Value.field? key)

/-! ## Comparison -/

/-- The number as a count: the whole part, and zero below it. -/
def countOf (n : Number) : Nat :=
  match n with
  | .int i => i.toNat
  | .float x => if x.negative then 0 else x.units / Binary64.one

private def sizeIs (n : Nat) : Value → Bool
  | .string s => s.utf8ByteSize == n
  | .array items => items.length == n
  | .object fields => fields.length == n
  | _ => false

private def below? (left right : List Value) : Bool :=
  match left, right with
  | [.number a], [.number b] => a.compare b == .lt
  | _, _ => false

private def same? (left right : List Value) : Bool :=
  left.length == right.length && (left.zip right).all fun (a, b) => a.same b

private def inside? (left right : List Value) : Bool :=
  match right.head? with
  | some (.array items) => left.any fun v => items.any fun w => w.same v
  | some (.object fields) => left.any fun v => fields.any fun e => v.same e.2
  | _ => false

private def anyOf? (left right : List Value) : Bool :=
  if left.isEmpty then true
  else match right.head? with
    | some (.array items) => left.any fun v =>
      match v with
      | .array parts => parts.any fun p => items.any fun w => p.same w
      | v => items.any fun w => v.same w
    | _ => false

private def subset? (left right : List Value) : Bool :=
  match left.head?, right.head? with
  | none, _ => true
  | some (.array parts), some (.array items) =>
    !items.isEmpty && parts.all fun p => items.any fun w => p.same w
  | _, _ => false

private def pattern? (left right : List Value) : Bool :=
  match right.head? with
  | some (.string text) =>
    match Regex.ofText? text with
    | some r => left.any fun v => v.string?.any r.matchesIn
    | none => false
  | _ => false

private def size? (left right : List Value) : Bool :=
  match right.head? with
  | some (.number n) => left.all (sizeIs (countOf n))
  | _ => false

/-- Whether the values of two operands compare as the sign says. -/
def Sign.holds (left right : List Value) : Sign → Bool
  | equal => same? left right
  | unequal => !same? left right
  | below => below? left right
  | atMost => below? left right || same? left right
  | above => !(below? left right || same? left right)
  | atLeast => !below? left right
  | pattern => pattern? left right
  | inside => inside? left right
  | notInside => !inside? left right
  | size => size? left right
  | anyOf => anyOf? left right
  | noneOf => !anyOf? left right
  | subsetOf => subset? left right
  | .exists => !left.isEmpty

/-! ## Selection -/

/-- The place that a slice bound stands for, counted from the end when it is negative. -/
def bound? (i : Int) (count : Nat) : Option Nat :=
  if 0 ≤ i then if i ≤ count then some i.toNat else none
  else if -count ≤ i then some (count + i).toNat else none

/-- The items of a slice; a last bound of zero is the end. -/
def sliceOf (first last : Int) (step : Nat) (items : List Value) : List Value :=
  match bound? first items.length, bound? last items.length with
  | some i, some j =>
    let j := if j = 0 then items.length else j
    ((items.take j).drop i).zipIdx.filterMap fun (v, k) => if k % step = 0 then some v else none
  | _, _ => []

/-- Whether a length at the end of a chain counts what is selected rather than the items of the
first array selected. -/
def countsMatches (chain : List Selector) : Bool :=
  let selectsMany : Selector → Bool
    | .indices _ => true
    | .fields _ => true
    | .slice .. => true
    | .filter _ => true
    | _ => false
  if chain.length ≤ 2 then false
  else match chain[chain.length - 2]? with
    | some (.index _) => false
    | some s =>
      selectsMany s || chain.foldl (fun many s =>
        match s with
        | .index _ => false
        | .wildcard => true
        | s => many || selectsMany s) false
    | none => false

/-- The length at the end of a chain. -/
def lengthOf (counts : Bool) (selected : List Match) : Match :=
  if selected.all (·.value?.isNone) then .missing
  else if counts then .computed (.int (selected.filter (·.value?.isSome)).length)
  else match selected.head?.bind Match.value? with
    | some (.array items) => .computed (.int items.length)
    | _ => .missing

/-- What is selected from a part of the document; there is nothing to select from anything else. -/
def Match.select (m : Match) (f : Value → List Match) : List Match :=
  match m with
  | .found v => f v
  | _ => [.missing]

/-- A part of a condition holds in an array when it holds for one of its items. -/
def Condition.holdsIn (v : Value) (p : Value → Bool) : Bool :=
  match v with
  | .array items => items.any p
  | v => p v

mutual

/-- What a selector gives for one match. -/
def Selector.find (root : Value) : Selector → Match → List Match
  | .root, _ => [.found root]
  | .current chain, m => findChain root (countsMatches chain) chain [m]
  | .field key, m => m.select fun v => [.ofOption (v.field? key)]
  | .descend key, m => m.select fun v => Match.all (descendants key v)
  | .descendAll, m =>
    match m with
    | .found v => (below v).map .found
    | .computed _ => []
    | .missing => [.missing]
  | .wildcard, m => m.select fun v =>
    match v with
    | .array items => Match.all items
    | .object fields => Match.all (fields.map (·.2))
    | _ => [.missing]
  | .index i, m => m.select fun v => [.ofOption (v.array?.bind (·[i]?))]
  | .slice first last step, m => m.select fun v =>
    match v with
    | .array items => Match.all (sliceOf first last step items)
    | _ => [.missing]
  | .indices is, m => is.flatMap fun i => m.select fun v =>
    [.ofOption (v.array?.bind fun items => i.number?.bind fun n => items[countOf n]?)]
  | .fields keys, m => keys.flatMap fun key => m.select fun v => [.ofOption (v.field? key)]
  | .filter condition, m => m.select fun v =>
    match v with
    | .array items => Match.all (items.filter (condition.holds root))
    | v => Match.all (if condition.holds root v then [v] else [])
  | .length, _ => []

/-- What a chain gives for what has been selected before it. -/
def findChain (root : Value) (counts : Bool) : List Selector → List Match → List Match
  | [], selected => selected
  | .length :: rest, selected => findChain root counts rest [lengthOf counts selected]
  | s :: rest, selected => findChain root counts rest (selected.flatMap (s.find root))

/-- Whether a condition holds for an element. -/
def Condition.holds (root : Value) : Condition → Value → Bool
  | .test left sign right, v => sign.holds (left.values root v) (right.values root v)
  | .both a b, v => Condition.holdsIn v (a.holds root) && Condition.holdsIn v (b.holds root)
  | .either a b, v => Condition.holdsIn v (a.holds root) || Condition.holdsIn v (b.holds root)
  | .negation a, v => !Condition.holdsIn v (a.holds root)

/-- The values of an operand for an element. -/
def Operand.values (root : Value) : Operand → Value → List Value
  | .literal v, _ => [v]
  | .path chain, v =>
    (findChain root (countsMatches chain) chain [.found v]).filterMap Match.value?

end

/-- What a path selects from a document: null for nothing, the values in an array otherwise. -/
def select (chain : List Selector) (document : Value) : Value :=
  let selected := findChain document (countsMatches chain) chain [.found document]
  match selected.filterMap Match.value? with
  | [] => .null
  | vs => .array vs

end HttpSuite.JsonPath
