import HttpSuite.Text.Hex
import HttpSuite.Text.Utf8
import HttpSuite.Value

/-!
# Reading JSON text

`Value.ofJson?` reads one JSON value that fills the whole text.  Arrays and mappings may be nested
127 deep.  An integer is read exactly if it fits 64 bits, with or without sign; every other number
is a binary64 number, computed from its first nineteen or twenty digits and one or more scalings by
powers of ten, each rounded.
-/

namespace HttpSuite

namespace Json

/-- The blanks between tokens. -/
def isSpace (c : Char) : Bool := c == ' ' || c == '\n' || c == '\r' || c == '\t'

def skipSpace (cs : List Char) : List Char := cs.dropWhile isSpace

/-! ## Numbers -/

/-- The largest significand that is kept. -/
def maxSignificand : Nat := Nat.pow 2 64 - 1

def digitValue (c : Char) : Nat := c.toNat - '0'.toNat

/-- Reads digits into a significand as long as it fits; gives also how many were taken and what is
left. -/
def takeDigits (significand taken : Nat) : List Char → Nat × Nat × List Char
  | [] => (significand, taken, [])
  | c :: cs =>
    if c.isDigit ∧ significand * 10 + digitValue c ≤ maxSignificand then
      takeDigits (significand * 10 + digitValue c) (taken + 1) cs
    else (significand, taken, c :: cs)

/-- The power `10 ^ k` as a number, for `k` at most 308. -/
def powerOfTen (k : Nat) : Binary64 := (Binary64.ofDecimal? false 1 k).getD Binary64.zero

/-- A significand scaled by a power of ten in steps of at most 308 places, rounding each step. -/
def scale? (x : Binary64) (exponent : Int) : Option Binary64 :=
  if exponent.natAbs ≤ 308 then
    if 0 ≤ exponent then x.mul? (powerOfTen exponent.natAbs)
    else x.div? (powerOfTen exponent.natAbs)
  else if x.isZero then some x
  else if 0 ≤ exponent then none
  else do
    let y ← x.div? (powerOfTen 308)
    scale? y (exponent + 308)
termination_by exponent.natAbs
decreasing_by omega

def signed (negative : Bool) (x : Binary64) : Binary64 := if negative then x.neg else x

/-- A number with a part after the point or an exponent, from its significand. -/
def floatOf? (negative : Bool) (significand : Nat) (exponent : Int) : Option Number :=
  (scale? (Binary64.ofInt significand) exponent).map fun x => .float (signed negative x)

/-- An exponent part after its letter; too large an exponent is an error unless the number is zero
or the exponent is negative. -/
def readExponent (negative : Bool) (significand : Nat) (exponent : Int) (cs : List Char) :
    Option (Number × List Char) :=
  let (down, cs) := match cs with
    | '+' :: r => (false, r)
    | '-' :: r => (true, r)
    | _ => (false, cs)
  let digits := cs.takeWhile Char.isDigit
  let rest := cs.dropWhile Char.isDigit
  if digits.isEmpty then none
  else
    let size := digits.foldl (fun n c => n * 10 + digitValue c) 0
    if Nat.pow 2 31 - 1 < size then
      if significand ≠ 0 ∧ !down then none
      else some (.float (signed negative Binary64.zero), rest)
    else
      (floatOf? negative significand (if down then exponent - size else exponent + size)).map
        (·, rest)

/-- What follows the digits of a number that is not an integer. -/
def readScale (negative : Bool) (significand : Nat) (exponent : Int) (cs : List Char) :
    Option (Number × List Char) :=
  match cs with
  | 'e' :: r => readExponent negative significand exponent r
  | 'E' :: r => readExponent negative significand exponent r
  | _ => (floatOf? negative significand exponent).map (·, cs)

/-- The part after a decimal point. -/
def readFraction (negative : Bool) (significand : Nat) (exponent : Int) (cs : List Char) :
    Option (Number × List Char) :=
  let (significand, taken, rest) := takeDigits significand 0 cs
  let dropped := rest.takeWhile Char.isDigit
  if taken = 0 ∧ dropped.isEmpty then none
  else readScale negative significand (exponent - taken) (rest.drop dropped.length)

/-- A number without its sign.  A zero stands alone before the point. -/
def readUnsigned (negative : Bool) (cs : List Char) : Option (Number × List Char) :=
  match cs with
  | '0' :: c :: _ => if c.isDigit then none else unsigned
  | c :: _ => if c.isDigit then unsigned else none
  | [] => none
where
  unsigned : Option (Number × List Char) :=
    let (significand, _, rest) := takeDigits 0 0 cs
    let dropped := rest.takeWhile Char.isDigit
    let after := rest.drop dropped.length
    match after with
    | '.' :: r => readFraction negative significand dropped.length r
    | 'e' :: r => readExponent negative significand dropped.length r
    | 'E' :: r => readExponent negative significand dropped.length r
    | _ =>
      if !dropped.isEmpty then (floatOf? negative significand dropped.length).map (·, after)
      else if !negative then some (.int significand, after)
      else if significand = 0 ∨ Nat.pow 2 63 < significand then
        some (.float (Binary64.ofInt significand).neg, after)
      else some (.int (-significand), after)

def readNumber (cs : List Char) : Option (Number × List Char) :=
  match cs with
  | '-' :: r => readUnsigned true r
  | _ => readUnsigned false cs

/-! ## Strings -/

def simpleEscape? : Char → Option Char
  | '"' => some '"'
  | '\\' => some '\\'
  | '/' => some '/'
  | 'b' => some '\x08'
  | 'f' => some '\x0c'
  | 'n' => some '\n'
  | 'r' => some '\r'
  | 't' => some '\t'
  | _ => none

/-- A string after its opening quote, with the rest after the closing one.  A surrogate is read only
as part of a pair. -/
def readString (acc : List Char) : List Char → Option (List Char × List Char)
  | [] => none
  | '"' :: r => some (acc.reverse, r)
  | '\\' :: 'u' :: a :: b :: c :: d :: r =>
    match Text.hexNumber? [a, b, c, d] with
    | none => none
    | some n =>
      if 0xDC00 ≤ n ∧ n ≤ 0xDFFF then none
      else if 0xD800 ≤ n ∧ n ≤ 0xDBFF then
        match r with
        | '\\' :: 'u' :: a :: b :: c :: d :: r =>
          match Text.hexNumber? [a, b, c, d] with
          | none => none
          | some m =>
            if 0xDC00 ≤ m ∧ m ≤ 0xDFFF then
              readString (Char.ofNat ((n - 0xD800) * 0x400 + (m - 0xDC00) + 0x10000) :: acc) r
            else none
        | _ => none
      else readString (Char.ofNat n :: acc) r
  | '\\' :: c :: r =>
    match simpleEscape? c with
    | none => none
    | some e => readString (e :: acc) r
  | c :: r => if c.toNat < 32 ∨ c = '\\' then none else readString (c :: acc) r

/-! ## Values -/

/-- The deepest nesting of arrays and mappings. -/
def maxDepth : Nat := 127

mutual

/-- A value and what follows it.  The first argument bounds the number of reading steps, the second
the nesting that is still allowed. -/
def readValue : Nat → Nat → List Char → Option (Value × List Char)
  | 0, _, _ => none
  | fuel + 1, depth, cs =>
    match skipSpace cs with
    | 'n' :: 'u' :: 'l' :: 'l' :: r => some (.null, r)
    | 't' :: 'r' :: 'u' :: 'e' :: r => some (.bool true, r)
    | 'f' :: 'a' :: 'l' :: 's' :: 'e' :: r => some (.bool false, r)
    | '"' :: r => (readString [] r).map fun (s, r) => (.string (String.ofList s), r)
    | '[' :: r =>
      if depth = 0 then none
      else match skipSpace r with
        | ']' :: r => some (.array [], r)
        | r => (readItems fuel (depth - 1) r).map fun (items, r) => (.array items, r)
    | '\x7b' :: r =>
      if depth = 0 then none
      else match skipSpace r with
        | '\x7d' :: r => some (.object [], r)
        | r => (readFields fuel (depth - 1) r).map fun (fields, r) =>
          (.object (Entries.ofList fields), r)
    | r => (readNumber r).map fun (n, r) => (.number n, r)

/-- The items of an array up to its closing bracket. -/
def readItems : Nat → Nat → List Char → Option (List Value × List Char)
  | 0, _, _ => none
  | fuel + 1, depth, cs =>
    match readValue fuel depth cs with
    | none => none
    | some (v, r) =>
      match skipSpace r with
      | ',' :: r => (readItems fuel depth r).map fun (vs, r) => (v :: vs, r)
      | ']' :: r => some ([v], r)
      | _ => none

/-- The fields of a mapping up to its closing brace. -/
def readFields : Nat → Nat → List Char → Option (Mapping × List Char)
  | 0, _, _ => none
  | fuel + 1, depth, cs =>
    match skipSpace cs with
    | '"' :: r =>
      match readString [] r with
      | none => none
      | some (key, r) =>
        match skipSpace r with
        | ':' :: r =>
          match readValue fuel depth r with
          | none => none
          | some (v, r) =>
            let field := (String.ofList key, v)
            match skipSpace r with
            | ',' :: r => (readFields fuel depth r).map fun (fs, r) => (field :: fs, r)
            | '\x7d' :: r => some ([field], r)
            | _ => none
        | _ => none
    | _ => none

end

end Json

/-- The value of a JSON text.  A repeated key keeps its first place and its last value. -/
def Value.ofJson? (text : String) : Option Value :=
  let cs := text.toList
  match Json.readValue (2 * cs.length + 2) Json.maxDepth cs with
  | some (v, r) => if (Json.skipSpace r).isEmpty then some v else none
  | none => none

/-- The fields of a JSON text that is a mapping, repetitions kept, or the items of one that is an
array. -/
def Json.parts? (text : String) : Option (Mapping ⊕ List Value) := do
  let cs := skipSpace text.toList
  let fuel := 2 * cs.length + 2
  let (parts, rest) ← match cs with
    | '\x7b' :: r =>
      match skipSpace r with
      | '\x7d' :: r => some (.inl [], r)
      | r => (readFields fuel (maxDepth - 1) r).map fun (fields, r) => (.inl fields, r)
    | '[' :: r =>
      match skipSpace r with
      | ']' :: r => some (.inr [], r)
      | r => (readItems fuel (maxDepth - 1) r).map fun (items, r) => (.inr items, r)
    | _ => none
  if (skipSpace rest).isEmpty then some parts else none

/-- The value of a JSON text in bytes; bytes that are no text have none. -/
def Value.ofJsonBytes? (bytes : List UInt8) : Option Value :=
  (Utf8.text? bytes).bind Value.ofJson?

end HttpSuite
