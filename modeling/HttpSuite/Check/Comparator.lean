import HttpSuite.Regex.Reader
import HttpSuite.Text.Blank
import HttpSuite.Text.Decimal
import HttpSuite.Value.Compare
import HttpSuite.Value.Text

/-!
# Comparators

A comparator relates an actual value to an expected one.  Where it is not defined for two values it
fails with an error, which is neither yes nor no.
-/

namespace HttpSuite

inductive Comparator where
  | equal
  | unequal
  | less
  | atMost
  | greater
  | atLeast
  | contains
  | containedBy
  | count
  | pattern
  | typeName
  | sameText
deriving DecidableEq

/-- Why two values cannot be compared. -/
inductive ComparisonError where
  | noOrder (actual expected : Value)
  | noCount (actual : Value)
  | countExpected (expected : Value)
  | notContainer (container : Value)
  | invalidPattern (pattern reason : String)
  | typeNameExpected (expected : Value)
  | unknownTypeName (name : String)

def ComparisonError.message : ComparisonError → String
  | noOrder a b => "cannot order " ++ a.toText ++ " and " ++ b.toText
  | noCount v => "cannot count elements of " ++ v.toText
  | countExpected v => "expected count must be a non-negative integer, got " ++ v.toText
  | notContainer v => v.toText ++ " is not a container"
  | invalidPattern pattern reason => "invalid regex '" ++ pattern ++ "': " ++ reason
  | typeNameExpected v => "type name must be a string, got " ++ v.toText
  | unknownTypeName name => "unknown type name '" ++ name ++ "'"

namespace Comparator

def name : Comparator → String
  | equal => "eq"
  | unequal => "ne"
  | less => "lt"
  | atMost => "le"
  | greater => "gt"
  | atLeast => "ge"
  | contains => "contains"
  | containedBy => "contained_by"
  | count => "count_eq"
  | pattern => "regex"
  | typeName => "type"
  | sameText => "str_eq"

/-- All names of a comparator. -/
def names : Comparator → List String
  | equal => ["eq", "equals", "=="]
  | unequal => ["ne", "not_equals", "!="]
  | less => ["lt", "less_than", "<"]
  | atMost => ["le", "less_than_or_equal", "<="]
  | greater => ["gt", "greater_than", ">"]
  | atLeast => ["ge", "greater_than_or_equal", ">="]
  | contains => ["contains"]
  | containedBy => ["contained_by"]
  | count => ["count_eq", "length_eq"]
  | pattern => ["regex"]
  | typeName => ["type"]
  | sameText => ["str_eq"]

def all : List Comparator :=
  [equal, unequal, less, atMost, greater, atLeast, contains, containedBy, count, pattern, typeName,
    sameText]

/-- The comparator of a name in any letter case, blanks around it aside. -/
def ofName? (text : String) : Option Comparator :=
  all.find? fun c => c.names.contains (lower (trimmed text))

/-- The order of two numbers or two strings. -/
def order (actual expected : Value) : Except ComparisonError Ordering :=
  match actual, expected with
  | .number a, .number b => .ok (a.compare b)
  | .string a, .string b => .ok (compare a b)
  | a, b => .error (.noOrder a b)

/-- Whether a value is part of a string, an item of a list or a key of a mapping. -/
def isIn (container item : Value) : Except ComparisonError Bool :=
  match container with
  | .string text => .ok (Text.isPart item.render.toList text.toList)
  | .array items => .ok (items.any fun v => v.equal item)
  | .object fields => .ok (Entries.contains item.render fields)
  | v => .error (.notContainer v)

def countOf : Value → Except ComparisonError Nat
  | .array items => .ok items.length
  | .object fields => .ok fields.length
  | .string s => .ok s.length
  | v => .error (.noCount v)

/-- A count as a number or in decimal digits. -/
def wantedCount (expected : Value) : Except ComparisonError Nat :=
  let wanted : Option Nat := match expected with
    | .number (.int i) => if 0 ≤ i then some i.toNat else none
    | .string s => Text.unsigned? (trimmed s)
    | _ => none
  match wanted with
  | some n => .ok n
  | none => .error (.countExpected expected)

/-- The types of values by name. -/
def hasType (v : Value) (name : String) : Except ComparisonError Bool :=
  match lower name with
  | "null" | "none" => .ok v.isNull
  | "str" | "string" => .ok v.isString
  | "int" | "integer" => .ok v.isInt
  | "float" => .ok v.isFloat
  | "number" => .ok v.isNumber
  | "bool" | "boolean" => .ok v.isBool
  | "list" | "array" => .ok v.isArray
  | "dict" | "map" | "object" => .ok v.isObject
  | "scalar" => .ok (!(v.isArray || v.isObject))
  | "collection" => .ok (v.isArray || v.isObject)
  | other => .error (.unknownTypeName other)

/-- Whether the actual value relates to the expected one. -/
def apply (c : Comparator) (actual expected : Value) : Except ComparisonError Bool :=
  match c with
  | equal => .ok (actual.equal expected)
  | unequal => .ok (!actual.equal expected)
  | less => (order actual expected).map (· == .lt)
  | atMost => (order actual expected).map (· != .gt)
  | greater => (order actual expected).map (· == .gt)
  | atLeast => (order actual expected).map (· != .lt)
  | contains => isIn actual expected
  | containedBy => isIn expected actual
  | count => do
    let n ← countOf actual
    return n == (← wantedCount expected)
  | pattern =>
    match Regex.ofText? expected.render with
    | some r => .ok (r.matchesIn actual.render)
    | none => .error (.invalidPattern expected.render "not a regular expression")
  | typeName =>
    match expected with
    | .string name => hasType actual name
    | v => .error (.typeNameExpected v)
  | sameText => .ok (actual.render == expected.render)

end Comparator

end HttpSuite
