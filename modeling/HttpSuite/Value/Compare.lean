import HttpSuite.Value

/-!
# Equality and truth of values

`Value.same` is equality by representation: an integer never equals a binary64 number, fields are
compared without regard to their order.  `Value.equal` compares two numbers by their binary64 views
and everything else by `same`.
-/

namespace HttpSuite

def Number.same : Number → Number → Bool
  | .int i, .int j => i == j
  | .float x, .float y => x.compare y == .eq
  | _, _ => false

namespace Value

mutual

/-- Equality by representation. -/
def same : Value → Value → Bool
  | .null, .null => true
  | .bool a, .bool b => a == b
  | .number a, .number b => a.same b
  | .string a, .string b => a == b
  | .array xs, .array ys => sameItems xs ys
  | .object xs, .object ys => xs.length == ys.length && sameFields xs ys
  | _, _ => false

def sameItems : List Value → List Value → Bool
  | [], [] => true
  | x :: xs, y :: ys => x.same y && sameItems xs ys
  | _, _ => false

/-- Whether each field of the first mapping is in the second with the same value. -/
def sameFields : List (String × Value) → List (String × Value) → Bool
  | [], _ => true
  | (key, x) :: xs, ys =>
    (match Entries.get? key ys with
      | some y => x.same y
      | none => false) && sameFields xs ys

end

/-- Equality as tests see it at the top of a value: `1` equals `1.0`. -/
def equal : Value → Value → Bool
  | .number a, .number b => a.compare b == .eq
  | v, w => v.same w

/-- Everything is true except null, false, zero and what is empty. -/
def isTruthy : Value → Bool
  | .null => false
  | .bool b => b
  | .number n => !n.toBinary64.isZero
  | .string s => s != ""
  | .array items => !items.isEmpty
  | .object fields => !fields.isEmpty

def isInt : Value → Bool
  | .number (.int _) => true
  | _ => false

def isFloat : Value → Bool
  | .number (.float _) => true
  | _ => false

def isNumber (v : Value) : Bool := v.number?.isSome

def isBool : Value → Bool
  | .bool _ => true
  | _ => false

def isString (v : Value) : Bool := v.string?.isSome

def isArray (v : Value) : Bool := v.array?.isSome

def isObject (v : Value) : Bool := v.object?.isSome

end Value

end HttpSuite
