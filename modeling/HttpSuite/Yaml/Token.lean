import HttpSuite.Yaml.Block
import HttpSuite.Yaml.Plain
import HttpSuite.Yaml.Quoted
import HttpSuite.Yaml.Tag

/-!
# Tokens

The tokens of a text make its indentation explicit: `blockSequence`, `blockMapping` and `blockEnd`
stand where the column of a line opens and closes blocks.  A key of one line is found only at the
colon after it, so `Scan` keeps the place where such a key may have begun, for the block and for
every open bracket, and puts the `key` token there afterwards.
-/

namespace HttpSuite.Yaml

inductive Token where
  | directive (d : Directive)
  | documentStart
  | documentEnd
  | blockSequence
  | blockMapping
  | blockEnd
  | openSequence
  | closeSequence
  | openMapping
  | closeMapping
  | item
  | comma
  | key
  | value
  | anchor (name : String)
  | alias (name : String)
  | tag (t : Tag)
  | scalar (text : String) (plain : Bool)

/-- Where a key may have begun. -/
structure KeyPlace where
  /-- The number of tokens before it. -/
  tokens : Nat
  /-- Whether nothing but a key may stand there. -/
  required : Bool
  index : Nat
  line : Nat
  column : Nat

structure Scan where
  cur : Cursor
  /-- The tokens read so far, the last one first. -/
  tokens : List Token
  /-- The columns of the open blocks, the innermost first. -/
  blocks : List Nat
  /-- Where a key may have begun, since the innermost open bracket. -/
  place : Option KeyPlace
  /-- The same for the brackets around it. -/
  outer : List (Option KeyPlace)
  /-- Whether a key may begin here. -/
  keyAllowed : Bool

namespace Scan

def ofText (cs : List Char) : Scan := ⟨.ofText cs, [], [], none, [], true⟩

def inBrackets (s : Scan) : Bool := !s.outer.isEmpty

/-- The first column that belongs to the innermost open block and not to its keys or items. -/
def margin (s : Scan) : Nat :=
  match s.blocks with
  | [] => 0
  | column :: _ => column + 1

def emit (t : Token) (s : Scan) : Scan := { s with tokens := t :: s.tokens }

/-- Emits a token of `n` characters. -/
def emitOver (t : Token) (n : Nat) (s : Scan) : Scan := { s.emit t with cur := s.cur.skip n }

def allow (allowed : Bool) (s : Scan) : Scan := { s with keyAllowed := allowed }

/-! ## Blocks -/

/-- Closes the blocks that are indented more than the column, or all of them. -/
def closeBlocks (column : Option Nat) (s : Scan) : Scan :=
  if s.inBrackets then s
  else
    let closed := s.blocks.takeWhile fun c => column.all (· < c)
    { s with
      blocks := s.blocks.drop closed.length
      tokens := closed.map (fun _ => .blockEnd) ++ s.tokens }

/-- Opens a block at a column, unless the innermost one is indented as much; its token stands before
the last `back` tokens. -/
def openBlock (t : Token) (column back : Nat) (s : Scan) : Scan :=
  if s.inBrackets || s.blocks.head?.any (column ≤ ·) then s
  else
    { s with
      blocks := column :: s.blocks
      tokens := s.tokens.take back ++ t :: s.tokens.drop back }

/-! ## Places of keys -/

/-- Forgets where a key may have begun; a required one is an error. -/
def dropPlace? (s : Scan) : Option Scan :=
  if s.place.any (·.required) then none else some { s with place := none }

/-- Notes that a key may begin here. -/
def savePlace? (s : Scan) : Option Scan :=
  if !s.keyAllowed then some s
  else do
    let required := !s.inBrackets && s.blocks.head? == some s.cur.column
    let s ← s.dropPlace?
    return { s with
      place := some ⟨s.tokens.length, required, s.cur.index, s.cur.line, s.cur.column⟩ }

/-- Whether a key from a place may not end here: it has at most 1024 characters and one line. -/
def isStale (s : Scan) (place : KeyPlace) : Bool :=
  place.line < s.cur.line || place.index + 1024 < s.cur.index

/-- Forgets the places from which a key may no longer end here; a required one is an error. -/
def dropStale? (s : Scan) : Option Scan := do
  let check (place : Option KeyPlace) : Option (Option KeyPlace) :=
    match place with
    | none => some none
    | some p => if !s.isStale p then some (some p) else if p.required then none else some none
  return { s with place := ← check s.place, outer := ← s.outer.mapM check }

/-! ## Single tokens -/

/-- Moves over blanks, comments and line breaks.  Tabs count only where no key may begin.  The first
argument bounds the number of lines. -/
def skipToToken : Nat → Scan → Scan
  | 0, s => s
  | fuel + 1, s =>
    let cur := if s.cur.index = 0 ∧ s.cur.sees '\uFEFF' then s.cur.skip 1 else s.cur
    let tabs := s.inBrackets || !s.keyAllowed
    let cur := cur.skipWhile fun c => c == ' ' || (tabs && c == '\t')
    let cur := if cur.sees '#' then cur.skipWhile (!isBreak ·) else cur
    if cur.rest.head?.any isBreak then
      skipToToken fuel
        { s with cur := cur.skipBreak, keyAllowed := s.keyAllowed || !s.inBrackets }
    else { s with cur }

/-- A directive or document marker closes all blocks. -/
def endDocument? (s : Scan) : Option Scan :=
  (s.closeBlocks none).dropPlace?.map (·.allow false)

def bracketOpened? (t : Token) (s : Scan) : Option Scan := do
  let s ← s.savePlace?
  return { s.emitOver t 1 with place := none, outer := s.place :: s.outer, keyAllowed := true }

def bracketClosed? (t : Token) (s : Scan) : Option Scan := do
  let s := (← s.dropPlace?).emitOver t 1 |>.allow false
  match s.outer with
  | [] => some s
  | place :: outer => some { s with place, outer }

def item? (s : Scan) : Option Scan := do
  if !s.inBrackets && !s.keyAllowed then none
  let s ← (s.openBlock .blockSequence s.cur.column 0).dropPlace?
  return (s.emitOver .item 1).allow true

def key? (s : Scan) : Option Scan := do
  if !s.inBrackets && !s.keyAllowed then none
  let s ← (s.openBlock .blockMapping s.cur.column 0).dropPlace?
  return (s.emitOver .key 1).allow (!s.inBrackets)

/-- A colon after a key of one line, which gets its token now, or after a key with a token. -/
def value? (s : Scan) : Option Scan :=
  match s.place with
  | some place =>
    let back := s.tokens.length - place.tokens
    let tokens := s.tokens.take back ++ Token.key :: s.tokens.drop back
    let s := { s with tokens, place := none }
    some (((s.openBlock .blockMapping place.column (back + 1)).emitOver .value 1).allow false)
  | none =>
    if s.inBrackets then some ((s.emitOver .value 1).allow false)
    else if !s.keyAllowed then none
    else some (((s.openBlock .blockMapping s.cur.column 0).emitOver .value 1).allow true)

/-- The characters that may follow an anchor. -/
def endsAnchor (cs : List Char) : Bool :=
  endsWord cs || cs.head?.any fun c => "?:,]\x7d%@`".toList.contains c

def anchor? (make : String → Token) (s : Scan) : Option Scan := do
  let s := (← s.savePlace?).allow false
  let name := s.cur.rest.drop 1 |>.takeWhile isWordChar
  let s := s.emitOver (make (String.ofList name)) (1 + name.length)
  if name.isEmpty || !endsAnchor s.cur.rest then none else some s

def tag? (s : Scan) : Option Scan := do
  let s := (← s.savePlace?).allow false
  let (tag, cur) ← Tag.read? s.inBrackets s.cur
  return { s.emit (.tag tag) with cur }

def block? (literal : Bool) (s : Scan) : Option Scan := do
  let s := (← s.dropPlace?).allow true
  let (text, cur) ← Block.read? literal s.margin (s.cur.skip 1)
  return { s.emit (.scalar (String.ofList text) false) with cur }

def quoted? (single : Bool) (s : Scan) : Option Scan := do
  let s := (← s.savePlace?).allow false
  let (text, cur) ← Quoted.read? single [] .empty (s.cur.skip 1)
  return { s.emit (.scalar (String.ofList text.reverse) false) with cur }

/-- A plain scalar; the line breaks after it let a key begin. -/
def plain? (s : Scan) : Option Scan := do
  let s := (← s.savePlace?).allow false
  let (text, broken, cur) ← Plain.read? s.inBrackets s.margin [] .empty s.cur
  return { s.emit (.scalar (String.ofList text.reverse) true) with cur, keyAllowed := broken }

/-- The characters that begin no plain scalar. -/
def isIndicator (c : Char) : Bool := "-?:,[]\x7b\x7d#&*!|>'\"%@`".toList.contains c

def startsPlain (inBrackets : Bool) : List Char → Bool
  | [] => false
  | c :: cs =>
    (!isBlank c && !isBreak c && !isIndicator c) ||
      (c == '-' && !(cs.head?.any isBlank)) ||
      (!inBrackets && (c == '?' || c == ':') && !endsWord cs)

/-- The token that begins here, given the next character and those after it. -/
def token? (s : Scan) (c : Char) (cs : List Char) : Option Scan :=
  if s.cur.column = 0 ∧ c = '%' then do
    let s ← s.endDocument?
    let (d, cur) ← Directive.read? (s.cur.skip 1)
    return { s.emit (.directive d) with cur }
  else if s.cur.seesMarker '-' then s.endDocument?.map (·.emitOver .documentStart 3)
  else if s.cur.seesMarker '.' then s.endDocument?.map (·.emitOver .documentEnd 3)
  else
    let spaced := endsWord cs
    match c with
    | '[' => s.bracketOpened? .openSequence
    | '\x7b' => s.bracketOpened? .openMapping
    | ']' => s.bracketClosed? .closeSequence
    | '\x7d' => s.bracketClosed? .closeMapping
    | ',' => s.dropPlace?.map fun s => (s.emitOver .comma 1).allow true
    | '*' => s.anchor? .alias
    | '&' => s.anchor? .anchor
    | '!' => s.tag?
    | '\'' => s.quoted? true
    | '"' => s.quoted? false
    | c =>
      if c = '-' ∧ spaced then s.item?
      else if c = '?' ∧ (s.inBrackets ∨ spaced) then s.key?
      else if c = ':' ∧ (s.inBrackets ∨ spaced) then s.value?
      else if c = '|' ∧ !s.inBrackets then s.block? true
      else if c = '>' ∧ !s.inBrackets then s.block? false
      else if startsPlain s.inBrackets (c :: cs) then s.plain?
      else none

/-- Reads tokens to the end of the text, which closes all blocks.  The first argument bounds the
number of tokens. -/
def run? : Nat → Scan → Option (List Token)
  | 0, _ => none
  | fuel + 1, s => do
    let s ← (s.skipToToken (s.cur.rest.length + 1)).dropStale?
    let s := s.closeBlocks (some s.cur.column)
    match s.cur.rest with
    | [] =>
      let s ← (s.closeBlocks none).dropPlace?
      return s.tokens.reverse
    | c :: cs => run? fuel (← s.token? c cs)

end Scan

/-- The characters that a text may hold. -/
def isAllowedChar (c : Char) : Bool :=
  let n := c.toNat
  n == 0x09 || n == 0x0A || n == 0x0D || (0x20 ≤ n && n ≤ 0x7E) || n == 0x85 ||
    (0xA0 ≤ n && n ≤ 0xD7FF) || (0xE000 ≤ n && n ≤ 0xFFFD) || 0x10000 ≤ n

/-- The tokens of a text. -/
def Token.ofText? (text : String) : Option (List Token) :=
  let cs := text.toList
  if cs.all isAllowedChar then (Scan.ofText cs).run? (cs.length + 1) else none

end HttpSuite.Yaml
