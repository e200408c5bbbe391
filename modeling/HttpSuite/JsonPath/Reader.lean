import HttpSuite.JsonPath.Basic

/-!
# Reading path expressions

Blanks may stand between the parts of a path but not inside the name of a field.  Names without
quotes are made of ASCII letters, digits and a few signs; names in quotes are taken as written.
-/

namespace HttpSuite.JsonPath

/-- A reader takes the front of a text or fails. -/
abbrev Reader (α : Type) := List Char → Option (α × List Char)

/-- Blanks, tabs and line ends; a carriage return only before a line feed. -/
def skipBlanks : List Char → List Char
  | ' ' :: r => skipBlanks r
  | '\t' :: r => skipBlanks r
  | '\n' :: r => skipBlanks r
  | '\r' :: '\n' :: r => skipBlanks r
  | cs => cs

/-- The text after a given beginning. -/
def after? (word : String) (cs : List Char) : Option (List Char) :=
  if word.toList.isPrefixOf cs then some (cs.drop word.length) else none

/-! ## Names and numbers -/

def isNameChar (c : Char) : Bool :=
  c.isAlphanum || c == '_' || c == '-' || c == '/' || c == '\\' || c == '#'

/-- A name without quotes, not the call of a length. -/
def readBareName : Reader String := fun cs =>
  let name := cs.takeWhile isNameChar
  if name.isEmpty || (after? "length()" cs).isSome then none
  else some (String.ofList name, cs.drop name.length)

/-- The characters of a quoted name up to a quote of either kind.  Escapes stay as written. -/
def readQuotedChars (acc : List Char) : Reader (List Char)
  | '\\' :: 'u' :: a :: b :: c :: d :: r =>
    if (Text.hexNumber? [a, b, c, d]).isSome then
      readQuotedChars (d :: c :: b :: a :: 'u' :: '\\' :: acc) r
    else none
  | '\\' :: c :: r =>
    if c ∈ ['"', '\'', '\\', '/', 'b', 'f', 'n', 'r', 't', '(', ')'] then
      readQuotedChars (c :: '\\' :: acc) r
    else none
  | c :: r =>
    if c == '"' || c == '\'' || c == '\\' then some (acc.reverse, c :: r)
    else readQuotedChars (c :: acc) r
  | [] => none

/-- A text in single or double quotes. -/
def readQuoted : Reader String
  | q :: r =>
    if q == '"' || q == '\'' then
      match readQuotedChars [] r with
      | some (cs, c :: r) => if c == q then some (String.ofList cs, r) else none
      | _ => none
    else none
  | [] => none

/-- Digits without a leading zero. -/
def readDigits : Reader (List Char)
  | '0' :: r => some (['0'], r)
  | cs =>
    let digits := cs.takeWhile Char.isDigit
    if digits.isEmpty then none else some (digits, cs.drop digits.length)

def valueOf (digits : List Char) : Nat := digits.foldl (fun n c => n * 10 + Json.digitValue c) 0

def readUnsigned : Reader Nat := fun cs => (readDigits cs).map fun (ds, r) => (valueOf ds, r)

def readSigned : Reader Int
  | '-' :: r => (readUnsigned (skipBlanks r)).map fun (n, r) => (-n, r)
  | cs => (readUnsigned cs).map fun (n, r) => (n, r)

/-- The digits after a point, if there are any. -/
private def fraction (cs : List Char) : List Char × List Char :=
  match cs with
  | '.' :: r =>
    let digits := r.takeWhile Char.isDigit
    if digits.isEmpty then ([], cs) else (digits, r.drop digits.length)
  | _ => ([], cs)

/-- The exponent after its letter, if there is one. -/
private def exponent (cs : List Char) : Option Int × List Char :=
  match cs with
  | e :: r =>
    if e == 'e' || e == 'E' then
      let (negative, r) := match r with
        | '+' :: r => (false, r)
        | '-' :: r => (true, r)
        | _ => (false, r)
      let digits := r.takeWhile Char.isDigit
      if digits.isEmpty then (none, cs)
      else (some (if negative then -valueOf digits else valueOf digits), r.drop digits.length)
    else (none, cs)
  | [] => (none, cs)

/-- A number: an integer of 64 bits with a sign, or else the nearest binary64 number, which is null
when it is too large. -/
def readNumber : Reader Value := fun cs => do
  let (negative, r) := match cs with
    | '-' :: r => (true, r)
    | _ => (false, cs)
  let (whole, r) ← readDigits r
  let (places, r) := fraction r
  let (power, r) := exponent r
  let i : Int := if negative then -valueOf whole else valueOf whole
  if places.isEmpty ∧ power.isNone ∧ Number.minInt ≤ i ∧ i ≤ Number.maxInt then
    return (.int i, r)
  let x := Binary64.ofDecimal? negative (valueOf (whole ++ places)) (power.getD 0 - places.length)
  return (.ofOption (x.map Value.float), r)

/-! ## Parts of a path -/

def readSign : Reader Sign := fun cs =>
  let signs : List (String × Sign) := [
    ("==", .equal), ("!=", .unequal), ("~=", .pattern), (">=", .atLeast), (">", .above),
    ("<=", .atMost), ("<", .below), ("in", .inside), ("nin", .notInside), ("size", .size),
    ("noneOf", .noneOf), ("anyOf", .anyOf), ("subsetOf", .subsetOf)]
  signs.findSome? fun (word, sign) => (after? word cs).map (sign, ·)

/-- A sign or word after blanks. -/
def after (word : String) (cs : List Char) : Option (List Char) := after? word (skipBlanks cs)

/-- At least two parts with commas between them. -/
def readUnion {α : Type} (read : Reader α) : Reader (List α) := fun cs => do
  let (first, r) ← read (skipBlanks cs)
  let (rest, r) := go r.length r
  if rest.isEmpty then none else some (first :: rest, r)
where
  go : Nat → List Char → List α × List Char
    | 0, cs => ([], cs)
    | fuel + 1, cs =>
      match (after "," cs).bind fun r => read (skipBlanks r) with
      | some (a, r) =>
        let (rest, r) := go fuel r
        (a :: rest, r)
      | none => ([], cs)

/-- A slice: two bounds around a colon, either of which may be left out, and a step. -/
def readSlice : Reader Selector := fun cs => do
  let cs := skipBlanks cs
  let (first, r) := (readSigned cs).getD (0, cs)
  let r ← after ":" r
  let (last, r) := (readSigned (skipBlanks r)).getD (0, r)
  let stepped := (after ":" r).bind fun r => readUnsigned (skipBlanks r)
  let (step, r) := stepped.getD (1, r)
  return (.slice first last step, r)

/-- A field by name, without blanks inside. -/
def readField : Reader Selector := fun cs =>
  let quoted (r : List Char) : Option (Selector × List Char) := do
    let r ← after? "[" r
    let (key, r) ← readQuoted r
    return (.field key, ← after? "]" r)
  let bare : Option (Selector × List Char) := do
    let r ← after? "." cs
    let (key, r) ← readBareName r
    return (.field key, r)
  (after? "." cs).bind quoted <|> quoted cs <|> bare

/-- The key after the two points of a descent. -/
def readDescent : Reader Selector := fun cs => do
  let r ← after? "." cs
  let r := skipBlanks (← after "." r)
  let quoted : Option (Selector × List Char) := do
    let r ← after? "[" r
    let (key, r) ← readQuoted r
    return (.descend key, ← after? "]" r)
  ((readBareName r).map fun (key, r) => (.descend key, r)) <|> quoted <|>
    ((after? "*" r).map fun r => (.descendAll, r))

def readWildcard : Reader Selector := fun cs =>
  let bracket (r : List Char) : Option (Selector × List Char) := do
    let r ← after "[" r
    let r ← after "*" r
    return (.wildcard, ← after "]" r)
  let starred : Option (Selector × List Char) := do
    let r ← after? "." cs
    return (.wildcard, ← after "*" r)
  (after? "." cs).bind bracket <|> bracket cs <|> starred

def readLength : Reader Selector := fun cs => do
  let r ← after? "." cs
  let r ← after "length" r
  let r ← after "(" r
  return (.length, ← after ")" r)

/-- A path with the value of an operand: a chain of one union or field is a list of its parts. -/
def operandOf : List Selector → Operand
  | [.fields keys] => .literal (.array (keys.map .string))
  | [.indices is] => .literal (.array is)
  | [.field key] => .literal (.array [.string key])
  | chain => .path chain

/-! ## Paths -/

mutual

/-- Selectors one after another, at least one. -/
def readChain : Nat → Reader (List Selector)
  | 0, _ => none
  | fuel + 1, cs =>
    match readSelector fuel (skipBlanks cs) with
    | none => none
    | some (s, r) =>
      match readChain fuel r with
      | some (rest, r) => some (s :: rest, r)
      | none => some ([s], r)

def readSelector : Nat → Reader Selector
  | 0, _ => none
  | fuel + 1, cs =>
    ((after? "$" cs).map fun r => (Selector.root, r)) <|>
    (readDescent cs) <|>
    (readWildcard cs) <|>
    (readCurrent fuel cs) <|>
    (readField cs) <|>
    (readIndex fuel cs) <|>
    readLength cs

def readCurrent : Nat → Reader Selector
  | 0, _ => none
  | fuel + 1, cs =>
    match after? "@" cs with
    | none => none
    | some r =>
      match readChain fuel r with
      | some (chain, r) => some (.current chain, r)
      | none => some (.current [], r)

/-- A selector in brackets. -/
def readIndex : Nat → Reader Selector
  | 0, _ => none
  | fuel + 1, cs => do
    let r ← (after? "." cs).bind (after "[") <|> after "[" cs
    let parts :=
      ((readUnion readQuoted r).map fun (keys, r) => (Selector.fields keys, r)) <|>
      ((readUnion readNumber r).map fun (is, r) => (Selector.indices is, r)) <|>
      (readSlice r) <|>
      ((readUnsigned (skipBlanks r)).map fun (i, r) => (Selector.index i, r)) <|>
      readFilter fuel r
    let (s, r) ← parts
    return (s, ← after "]" r)

/-- A condition with its question mark and parentheses. -/
def readFilter : Nat → Reader Selector
  | 0, _ => none
  | fuel + 1, cs => do
    let r ← after "?" cs
    let r ← after "(" r
    let (c, r) ← readAlternatives fuel r
    return (.filter c, ← after ")" r)

/-- Conditions of which one must hold. -/
def readAlternatives : Nat → Reader Condition
  | 0, _ => none
  | fuel + 1, cs =>
    match readTogether fuel cs with
    | none => none
    | some (c, r) =>
      match (after "||" r).bind (readAlternatives fuel) with
      | some (d, r) => some (.either c d, r)
      | none => some (c, r)

/-- Conditions that must all hold. -/
def readTogether : Nat → Reader Condition
  | 0, _ => none
  | fuel + 1, cs =>
    match readNegation fuel cs with
    | none => none
    | some (c, r) =>
      match (after "&&" r).bind (readTogether fuel) with
      | some (d, r) => some (.both c d, r)
      | none => some (c, r)

def readNegation : Nat → Reader Condition
  | 0, _ => none
  | fuel + 1, cs =>
    match after "!" cs with
    | some r => (readCondition fuel r).map fun (c, r) => (.negation c, r)
    | none => readCondition fuel cs

/-- A comparison, an operand that must exist, or conditions in parentheses. -/
def readCondition : Nat → Reader Condition
  | 0, _ => none
  | fuel + 1, cs =>
    match readOperand fuel (skipBlanks cs) with
    | some (left, r) =>
      let compared := (readSign (skipBlanks r)).bind fun (sign, r) =>
        (readOperand fuel (skipBlanks r)).map fun (right, r) => (.test left sign right, r)
      some (compared.getD (.test left .exists (.literal .null), r))
    | none => do
      let r ← after "(" cs
      let (c, r) ← readAlternatives fuel r
      return (c, ← after ")" r)

def readOperand : Nat → Reader Operand
  | 0, _ => none
  | fuel + 1, cs =>
    ((readChain fuel cs).map fun (chain, r) => (operandOf chain, r)) <|>
    ((readQuoted cs).map fun (s, r) => (.literal (.string s), r)) <|>
    ((readNumber cs).map fun (v, r) => (.literal v, r)) <|>
    ((after? "true" cs).map fun r => (.literal (.bool true), r)) <|>
    ((after? "false" cs).map fun r => (.literal (.bool false), r)) <|>
    ((after? "null" cs).map fun r => (.literal .null, r))

end

/-- The path of a text. -/
def ofText? (text : String) : Option (List Selector) :=
  let cs := text.toList
  match readChain (12 * cs.length + 12) cs with
  | some (chain, r) => if (skipBlanks r).isEmpty then some chain else none
  | none => none

end HttpSuite.JsonPath
