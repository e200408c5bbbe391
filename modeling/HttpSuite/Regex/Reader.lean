import HttpSuite.Regex.Basic
import HttpSuite.Text.Hex
import HttpSuite.Text.Property
import HttpSuite.Value.Reader

/-!
# Reading regular expressions

The notation has alternatives, sequences, counted and uncounted repetition, groups with or without a
name, flags, classes with ranges, nesting and set operations, classes by name, boundaries and
escapes.  It has neither references to groups nor conditions on what lies ahead or behind.
-/

namespace HttpSuite.Regex

/-- What the flags of a group say. -/
structure Flags where
  ignoreCase : Bool := false
  multiLine : Bool := false
  dotAll : Bool := false
  ignoreBlanks : Bool := false
  carriageReturns : Bool := false
  ascii : Bool := false

namespace Flags

def digit (f : Flags) : CharSet := if f.ascii then .range 48 57 else .digit

def blank (f : Flags) : CharSet := if f.ascii then .runs [(9, 13), (32, 32)] else .blank

def word (f : Flags) : CharSet :=
  if f.ascii then .runs [(48, 57), (65, 90), (95, 95), (97, 122)] else .word

/-- The set with the case variants that count: of ASCII letters only, where the flags say so. -/
def fold (f : Flags) (s : CharSet) : CharSet :=
  let ascii := CharSet.range 0 127
  if !f.ignoreCase then s
  else if f.ascii then .union s (.intersection (.folded (.intersection s ascii)) ascii)
  else .folded s

/-- The characters outside a set, whose case variants are left out too.  Restricted to ASCII there
are none, because they would not all be whole characters. -/
def negate? (f : Flags) (s : CharSet) : Option CharSet :=
  if f.ascii then none else some (.complement (f.fold s))

def literal (f : Flags) (c : Char) : Regex := .set (f.fold (.single c))

def dot? (f : Flags) : Option Regex :=
  let left : CharSet :=
    if f.dotAll then .none
    else if f.carriageReturns then .runs [(10, 10), (13, 13)]
    else .range 10 10
  if f.ascii then none else some (.set (.complement left))

def lineStart (f : Flags) : Regex :=
  .boundary (if !f.multiLine then .textStart else if f.carriageReturns then .returnedStart
    else .lineStart)

def lineEnd (f : Flags) : Regex :=
  .boundary (if !f.multiLine then .textEnd else if f.carriageReturns then .returnedEnd
    else .lineEnd)

/-- Sets one flag by its letter. -/
def set? (f : Flags) (letter : Char) (on : Bool) : Option Flags :=
  match letter with
  | 'i' => some { f with ignoreCase := on }
  | 'm' => some { f with multiLine := on }
  | 's' => some { f with dotAll := on }
  | 'x' => some { f with ignoreBlanks := on }
  | 'R' => some { f with carriageReturns := on }
  | 'u' => some { f with ascii := !on }
  | 'U' => some f
  | _ => none

/-- Sets flags up to the sign that ends them.  Each letter and the hyphen stand once, and a hyphen
is followed by a letter. -/
def read? (f : Flags) (seen : List Char) : List Char → Option (Flags × Bool × Char × List Char)
  | [] => none
  | c :: r =>
    if c = ':' ∨ c = ')' then
      if seen.head? = some '-' then none else some (f, seen.isEmpty, c, r)
    else if c ∈ seen then none
    else if c = '-' then f.read? ('-' :: seen) r
    else match f.set? c ('-' ∉ seen) with
      | some f => f.read? (c :: seen) r
      | none => none

end Flags

/-- Skips blanks and comments where the flags say so. -/
def skipBlanks (f : Flags) (cs : List Char) : List Char :=
  if f.ignoreBlanks then go false cs else cs
where
  go (comment : Bool) : List Char → List Char
    | [] => []
    | c :: r =>
      if comment then go (c != '\n') r
      else if c == '#' then go true r
      else if Text.isBlank c then go false r
      else c :: r

/-! ## Escapes -/

/-- What an escape stands for. -/
inductive Escape where
  | char (c : Char)
  | set (s : CharSet)
  | boundary (b : Boundary)

/-- A character by its code point: a fixed number of digits or any number in braces. -/
def readHex (count : Nat) (cs : List Char) : Option (Escape × List Char) :=
  match cs with
  | '\x7b' :: r =>
    let digits := r.takeWhile (· != '\x7d')
    match r.drop digits.length with
    | _ :: rest => (Text.hexChar? digits).map fun c => (.char c, rest)
    | [] => none
  | _ =>
    if cs.length < count then none
    else (Text.hexChar? (cs.take count)).map fun c => (.char c, cs.drop count)

/-- A class by the name of its property, of one letter or in braces. -/
def readProperty (f : Flags) (negated : Bool) (cs : List Char) :
    Option (Escape × List Char) := do
  let (name, rest) ← match cs with
    | '\x7b' :: r =>
      let name := r.takeWhile (· != '\x7d')
      match r.drop name.length with
      | _ :: rest => some (name, rest)
      | [] => none
    | c :: rest => some ([c], rest)
    | [] => none
  if f.ascii then none
  let set := CharSet.runs (← Text.propertyRanges? (String.ofList name))
  return (.set (← if negated then f.negate? set else f.fold set), rest)

/-- The boundaries that are written as a name in braces after the sign of a word edge. -/
def namedEdge? (word : CharSet) (name : String) : Option Boundary :=
  match name with
  | "start" => some (.wordStart word)
  | "end" => some (.wordEnd word)
  | "start-half" => some (.halfStart word)
  | "end-half" => some (.halfEnd word)
  | _ => none

/-- The sign of a word edge and what may follow it in braces: a name, or a count of repetition. -/
def readEdge (word : CharSet) (cs : List Char) : Option (Escape × List Char) :=
  match cs with
  | '\x7b' :: r =>
    if r.head?.any fun c => c.isAlpha || c == '-' then
      let name := r.takeWhile (· != '\x7d')
      match r.drop name.length with
      | _ :: rest => (namedEdge? word (String.ofList name)).map fun b => (.boundary b, rest)
      | [] => none
    else some (.boundary (.edge word), cs)
  | _ => some (.boundary (.edge word), cs)

/-- An escape after its backslash. -/
def readEscape (f : Flags) : List Char → Option (Escape × List Char)
  | [] => none
  | c :: r =>
    match c with
    | 'd' => some (.set f.digit, r)
    | 'D' => (f.negate? f.digit).map fun s => (.set s, r)
    | 's' => some (.set f.blank, r)
    | 'S' => (f.negate? f.blank).map fun s => (.set s, r)
    | 'w' => some (.set f.word, r)
    | 'W' => (f.negate? f.word).map fun s => (.set s, r)
    | 'p' => readProperty f false r
    | 'P' => readProperty f true r
    | 'x' => readHex 2 r
    | 'u' => readHex 4 r
    | 'U' => readHex 8 r
    | 'a' => some (.char '\x07', r)
    | 'f' => some (.char '\x0c', r)
    | 't' => some (.char '\t', r)
    | 'n' => some (.char '\n', r)
    | 'r' => some (.char '\r', r)
    | 'v' => some (.char '\x0b', r)
    | 'A' => some (.boundary .textStart, r)
    | 'z' => some (.boundary .textEnd, r)
    | 'b' => readEdge f.word r
    | 'B' => some (.boundary (.noEdge f.word), r)
    | '<' => some (.boundary (.wordStart f.word), r)
    | '>' => some (.boundary (.wordEnd f.word), r)
    | _ => if c.toNat < 128 && !c.isAlphanum then some (.char c, r) else none

/-! ## Classes -/

/-- The ASCII classes by name. -/
def asciiClass? (name : String) : Option CharSet :=
  match name with
  | "alnum" => some (.runs [(48, 57), (65, 90), (97, 122)])
  | "alpha" => some (.runs [(65, 90), (97, 122)])
  | "ascii" => some (.range 0 127)
  | "blank" => some (.runs [(9, 9), (32, 32)])
  | "cntrl" => some (.runs [(0, 31), (127, 127)])
  | "digit" => some (.range 48 57)
  | "graph" => some (.range 33 126)
  | "lower" => some (.range 97 122)
  | "print" => some (.range 32 126)
  | "punct" => some (.runs [(33, 47), (58, 64), (91, 96), (123, 126)])
  | "space" => some (.runs [(9, 13), (32, 32)])
  | "upper" => some (.range 65 90)
  | "word" => some (.runs [(48, 57), (65, 90), (95, 95), (97, 122)])
  | "xdigit" => some (.runs [(48, 57), (65, 70), (97, 102)])
  | _ => none

/-- An ASCII class by its name between colons after its opening bracket, and whether it is negated.
-/
def readAsciiClass (cs : List Char) : Option (Bool × CharSet × List Char) :=
  match cs with
  | ':' :: r =>
    let (negated, r) := match r with
      | '^' :: r => (true, r)
      | _ => (false, r)
    let name := r.takeWhile Char.isAlpha
    match r.drop name.length with
    | ':' :: ']' :: rest =>
      (asciiClass? (String.ofList name)).map fun s => (negated, s, rest)
    | _ => none
  | _ => none

/-- One character or class inside brackets.  Restricted to ASCII a class has no other characters. -/
def readClassItem (f : Flags) (cs : List Char) : Option (Escape × List Char) := do
  let (item, rest) ← match cs with
    | '\\' :: r => readEscape f r
    | c :: r => some (.char c, r)
    | [] => none
  match item with
  | .char c => if f.ascii && 128 ≤ c.toNat then none else return (item, rest)
  | _ => return (item, rest)

/-- A character, class or range inside brackets. -/
def readClassRange (f : Flags) (cs : List Char) : Option (CharSet × List Char) := do
  let (first, r) ← readClassItem f cs
  let r := skipBlanks f r
  let single : Option (CharSet × List Char) := match first with
    | .char c => some (.single c, r)
    | .set s => some (s, r)
    | .boundary _ => none
  match r with
  | [] => none
  | '-' :: after =>
    match skipBlanks f after with
    | ']' :: _ => single
    | '-' :: _ => single
    | [] => none
    | after =>
      let (last, rest) ← readClassItem f after
      match first, last with
      | .char a, .char b => if a ≤ b then some (.range a.toNat b.toNat, rest) else none
      | _, _ => none
  | _ => single

/-- What follows the hyphens at the start of a class. -/
def skipHyphens (f : Flags) (cs : List Char) : List Char :=
  skipBlanks f (cs.dropWhile fun c => c == '-' || (f.ignoreBlanks && Text.isBlank c))

/-- A set operation that waits for its second operand. -/
def Pending := CharSet → CharSet

mutual

/-- A class after its opening bracket. -/
def readClass : Nat → Flags → List Char → Option (CharSet × List Char)
  | 0, _, _ => none
  | fuel + 1, f, cs =>
    let cs := skipBlanks f cs
    let (negated, cs) := match cs with
      | '^' :: r => (true, skipBlanks f r)
      | _ => (false, cs)
    let (first, rest) := match cs with
      | '-' :: _ => (CharSet.single '-', skipHyphens f cs)
      | ']' :: r => (CharSet.single ']', r)
      | _ => (CharSet.none, cs)
    match readClassItems fuel f id first rest with
    | none => none
    | some (s, rest) =>
      if negated then (f.negate? s).map fun s => (s, rest) else some (s, rest)

/-- The items of a class up to its closing bracket: `pending` is applied to their union. -/
def readClassItems : Nat → Flags → Pending → CharSet → List Char → Option (CharSet × List Char)
  | 0, _, _, _, _ => none
  | fuel + 1, f, pending, union, cs =>
    match skipBlanks f cs with
    | [] => none
    | ']' :: r => some (pending (f.fold union), r)
    | '&' :: '&' :: r =>
      readClassItems fuel f (.intersection (pending (f.fold union))) .none r
    | '-' :: '-' :: r => readClassItems fuel f (.difference (pending (f.fold union))) .none r
    | '~' :: '~' :: r =>
      readClassItems fuel f (.symmetricDifference (pending (f.fold union))) .none r
    | '[' :: r =>
      match readAsciiClass r with
      | some (false, s, r) => readClassItems fuel f pending (.union union s) r
      | some (true, s, r) =>
        match f.negate? s with
        | none => none
        | some s => readClassItems fuel f pending (.union union s) r
      | none =>
        match readClass fuel f r with
        | none => none
        | some (s, r) => readClassItems fuel f pending (.union union s) r
    | cs =>
      match readClassRange f cs with
      | none => none
      | some (s, r) => readClassItems fuel f pending (.union union s) r

end

/-! ## Counts -/

/-- The value of decimal digits that follow `n`, and what comes after them. -/
def readDigits (f : Flags) (n : Option Nat) : List Char → Option Nat × List Char
  | [] => (n, [])
  | c :: r =>
    if c.isDigit then readDigits f (some (n.getD 0 * 10 + Json.digitValue c)) r
    else if f.ignoreBlanks && n.isSome && Text.isBlank c then readDigits f n r
    else (n, c :: r)

/-- A decimal number of at most 32 bits between blanks. -/
def readDecimal (f : Flags) (cs : List Char) : Option (Option Nat × List Char) :=
  let (n, rest) := readDigits f none (Text.trimStart cs)
  if n.any (Nat.pow 2 32 ≤ ·) then none else some (n, skipBlanks f (Text.trimStart rest))

/-- A count of repetition after its opening brace. -/
def readCount (f : Flags) (cs : List Char) : Option (Nat × Option Nat × List Char) := do
  let (least, r) ← readDecimal f (skipBlanks f cs)
  match r with
  | '\x7d' :: r => (least.map fun n => (n, some n, r))
  | ',' :: r =>
    match skipBlanks f r with
    | '\x7d' :: r => (least.map fun n => (n, none, r))
    | r =>
      let (most, r) ← readDecimal f r
      match least, most, r with
      | some n, some m, '\x7d' :: r => if n ≤ m then some (n, some m, r) else none
      | _, _, _ => none
  | _ => none

/-! ## Expressions -/

/-- What has been read of a group: the finished alternatives and the items of the current one, each
last first, with the names of the groups so far. -/
structure Reading where
  flags : Flags
  alternatives : List Regex
  items : List Regex
  /-- Whether the last item may be repeated. -/
  repeatable : Bool
  names : List String

namespace Reading

def start (flags : Flags) (names : List String) : Reading := ⟨flags, [], [], false, names⟩

def push (r : Reading) (item : Regex) : Reading :=
  { r with items := item :: r.items, repeatable := true }

def current (r : Reading) : Regex := r.items.foldl (fun acc item => .sequence item acc) .empty

def nextAlternative (r : Reading) : Reading :=
  { r with alternatives := r.current :: r.alternatives, items := [], repeatable := false }

def finish (r : Reading) : Regex :=
  r.alternatives.foldl (fun acc a => .either a acc) r.current

/-- Repeats the last item. -/
def repeatLast? (r : Reading) (least : Nat) (most : Option Nat) : Option Reading :=
  match r.items, r.repeatable with
  | item :: items, true => some { r with items := .repeated item least most :: items }
  | _, _ => none

end Reading

/-- The sign that makes a repetition lazy changes nothing about the existence of a match. -/
def skipLazy : List Char → List Char
  | '?' :: r => r
  | cs => cs

def isNameHead (c : Char) : Bool :=
  c == '_' || (CharSet.runs Text.alphabeticRanges).mem c.toNat

def isNameTail (c : Char) : Bool :=
  isNameHead c || c == '.' || c == '[' || c == ']' || (CharSet.runs Text.numericRanges).mem c.toNat

/-- The name of a group and what follows its closing bracket. -/
def readName (names : List String) (cs : List Char) : Option (String × List Char) :=
  let name := cs.takeWhile (· != '>')
  match cs.drop name.length with
  | _ :: rest =>
    let text := String.ofList name
    if name.head?.any isNameHead && name.all isNameTail && text ∉ names then some (text, rest)
    else none
  | [] => none

/-- The start of a group after its parenthesis: the flags and names inside it, or new flags for the
rest of the group around it. -/
inductive GroupStart where
  | group (flags : Flags) (names : List String) (rest : List Char)
  | flags (flags : Flags) (rest : List Char)

def readGroupStart (f : Flags) (names : List String) (cs : List Char) : Option GroupStart :=
  match cs with
  | '?' :: r =>
    match r with
    | '=' :: _ => none
    | '!' :: _ => none
    | '<' :: '=' :: _ => none
    | '<' :: '!' :: _ => none
    | '<' :: r => (readName names r).map fun (name, r) => .group f (name :: names) r
    | 'P' :: '<' :: r => (readName names r).map fun (name, r) => .group f (name :: names) r
    | _ =>
      match f.read? [] r with
      | some (_, true, ')', _) => none
      | some (g, _, ')', rest) => some (.flags g rest)
      | some (g, _, _, rest) => some (.group g names rest)
      | none => none
  | _ => some (.group f names cs)

/-- Reads items up to a closing parenthesis or the end of the text. -/
def readItems : Nat → Reading → List Char → Option (Regex × List String × List Char)
  | 0, _, _ => none
  | fuel + 1, st, cs =>
    let cs := skipBlanks st.flags cs
    let repeatAs (least : Nat) (most : Option Nat) (r : List Char) :=
      match st.repeatLast? least most with
      | none => none
      | some st => readItems fuel st (skipLazy r)
    match cs with
    | [] => some (st.finish, st.names, [])
    | ')' :: _ => some (st.finish, st.names, cs)
    | '|' :: r => readItems fuel st.nextAlternative r
    | '?' :: r => repeatAs 0 (some 1) r
    | '*' :: r => repeatAs 0 none r
    | '+' :: r => repeatAs 1 none r
    | '\x7b' :: r =>
      match readCount st.flags r with
      | none => none
      | some (least, most, r) => repeatAs least most (skipBlanks st.flags r)
    | '(' :: r =>
      match readGroupStart st.flags st.names (skipBlanks st.flags r) with
      | none => none
      | some (.flags f r) =>
        readItems fuel { st with flags := f, items := .empty :: st.items, repeatable := false } r
      | some (.group f names r) =>
        match readItems fuel (.start f names) r with
        | some (item, names, ')' :: r) => readItems fuel { st.push item with names := names } r
        | _ => none
    | '[' :: r =>
      match readClass fuel st.flags r with
      | none => none
      | some (s, r) => readItems fuel (st.push (.set s)) r
    | '\\' :: r =>
      match readEscape st.flags r with
      | none => none
      | some (.char c, r) => readItems fuel (st.push (st.flags.literal c)) r
      | some (.set s, r) => readItems fuel (st.push (.set s)) r
      | some (.boundary b, r) => readItems fuel (st.push (.boundary b)) r
    | '.' :: r =>
      match st.flags.dot? with
      | none => none
      | some dot => readItems fuel (st.push dot) r
    | '^' :: r => readItems fuel (st.push st.flags.lineStart) r
    | '$' :: r => readItems fuel (st.push st.flags.lineEnd) r
    | c :: r => readItems fuel (st.push (st.flags.literal c)) r

/-- The expression of a text, if the text is one of acceptable size. -/
def ofText? (text : String) : Option Regex :=
  let cs := text.toList
  match readItems (2 * cs.length + 2) (.start {} []) cs with
  | some (r, _, []) => if r.size ≤ maxSize then some r else none
  | _ => none

end HttpSuite.Regex
