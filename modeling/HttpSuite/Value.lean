import HttpSuite.Number.Binary64

/-!
# Values

The values of variables, documents and bodies.  A mapping is a list of fields in the order of their
first insertion.
-/

namespace HttpSuite

/-- An integer and a binary64 number are different numbers, also when they are equal in size. -/
inductive Number where
  | int (i : Int)
  | float (x : Binary64)

inductive Value where
  | null
  | bool (b : Bool)
  | number (n : Number)
  | string (s : String)
  | array (items : List Value)
  | object (fields : List (String × Value))

instance : Inhabited Value := ⟨.null⟩

/-- Values under names, in the order of first insertion. -/
abbrev Mapping := List (String × Value)

/-! ## Entries under names -/

namespace Entries

variable {α : Type}

/-- The entry under a name; the first one counts. -/
def get? (name : String) : List (String × α) → Option α
  | [] => none
  | (key, a) :: rest => if key = name then some a else get? name rest

def contains (name : String) (entries : List (String × α)) : Bool := (get? name entries).isSome

/-- Replaces the entry under a name in place, or appends a new one. -/
def insert (name : String) (a : α) : List (String × α) → List (String × α)
  | [] => [(name, a)]
  | (key, b) :: rest => if key = name then (key, a) :: rest else (key, b) :: insert name a rest

/-- Inserts all entries of the second list in order. -/
def insertAll (entries new : List (String × α)) : List (String × α) :=
  new.foldl (fun acc e => insert e.1 e.2 acc) entries

/-- The list with each name once, at the place of its first entry and with the value of its last. -/
def ofList (entries : List (String × α)) : List (String × α) := insertAll [] entries

/-- Removes the entry under a name and moves the last entry to its place. -/
def swapErase (name : String) (entries : List (String × α)) : List (String × α) :=
  match entries.span (fun e => e.1 != name) with
  | (_, []) => entries
  | (before, _ :: after) =>
    match after.getLast? with
    | none => before
    | some last => before ++ last :: after.dropLast

def keys (entries : List (String × α)) : List String := entries.map (·.1)

end Entries

namespace Value

def int (i : Int) : Value := .number (.int i)

def float (x : Binary64) : Value := .number (.float x)

def ofOption (v : Option Value) : Value := v.getD .null

def ofText? (s : Option String) : Value := (s.map Value.string).getD .null

def object? : Value → Option Mapping
  | .object fields => some fields
  | _ => none

def array? : Value → Option (List Value)
  | .array items => some items
  | _ => none

def string? : Value → Option String
  | .string s => some s
  | _ => none

def number? : Value → Option Number
  | .number n => some n
  | _ => none

def isNull : Value → Bool
  | .null => true
  | _ => false

/-- The value under a key of a mapping. -/
def field? (name : String) (v : Value) : Option Value := v.object?.bind (Entries.get? name)

end Value

/-! ## Numbers -/

namespace Number

/-- The smallest integer of 64 bits with a sign. -/
def minInt : Int := -Nat.pow 2 63

/-- The largest integer of 64 bits with a sign. -/
def maxInt : Int := Nat.pow 2 63 - 1

/-- The nearest binary64 number. -/
def toBinary64 : Number → Binary64
  | .int i => Binary64.ofInt i
  | .float x => x

/-- The order of the binary64 views. -/
def compare (a b : Number) : Ordering := a.toBinary64.compare b.toBinary64

end Number

end HttpSuite
