import HttpSuite.Text.Blank
import HttpSuite.Value.Compare

/-!
# Named tests of one value
-/

namespace HttpSuite

inductive ValueTest where
  | exists
  | notExists
  | isDict
  | isList
  | isStr
  | isInt
  | isFloat
  | isBool
  | isNull
  | truthy
deriving DecidableEq

namespace ValueTest

/-- All names of a test. -/
def names : ValueTest → List String
  | .exists => ["exists"]
  | notExists => ["not_exists"]
  | isDict => ["is_dict"]
  | isList => ["is_list"]
  | isStr => ["is_str", "is_string"]
  | isInt => ["is_int"]
  | isFloat => ["is_float"]
  | isBool => ["is_bool", "is_boolean"]
  | isNull => ["is_null", "is_none"]
  | truthy => ["truthy"]

def all : List ValueTest :=
  [.exists, notExists, isDict, isList, isStr, isInt, isFloat, isBool, isNull, truthy]

/-- The test of a name in any letter case, blanks around it aside. -/
def ofName? (text : String) : Option ValueTest :=
  all.find? fun t => t.names.contains (lower (trimmed text))

/-- Whether a value passes the test. -/
def holds (t : ValueTest) (v : Value) : Bool :=
  match t with
  | .exists => !v.isNull
  | notExists => v.isNull
  | isDict => v.isObject
  | isList => v.isArray
  | isStr => v.isString
  | isInt => v.isInt
  | isFloat => v.isFloat
  | isBool => v.isBool
  | isNull => v.isNull
  | truthy => v.isTruthy

end ValueTest

end HttpSuite
