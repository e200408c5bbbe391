import HttpSuite.Text.Hex
import HttpSuite.Text.Utf8
import HttpSuite.Yaml.Cursor

/-!
# Tags and directives

A tag is a handle and a suffix, or the whole tag in angle brackets, whose handle is empty.  A
directive gives the bytes that a handle stands for.  The tags of the standard types stand for
themselves; a tag that begins with `!` is local.
-/

namespace HttpSuite.Yaml

/-- A tag as it is written. -/
structure Tag where
  handle : String
  suffix : List UInt8

/-- A line at the start of a document that begins with a percent sign. -/
inductive Directive where
  | version (major minor : Nat)
  | tag (handle : String) (stands : List UInt8)

namespace Tag

/-- Whether a character may stand in a tag; inside angle brackets some more may. -/
def isTagChar (verbatim : Bool) (c : Char) : Bool :=
  isWordChar c || ";/?:@&=+$.%!~*'()".toList.contains c || (verbatim && ",[]".toList.contains c)

/-- The byte of a percent sign and two digits. -/
def escapedByte? : List Char → Option UInt8
  | '%' :: a :: b :: _ => (Text.hexNumber? [a, b]).map Nat.toUInt8
  | _ => none

/-- The number of bytes of the character that a byte begins. -/
def width? (b : UInt8) : Option Nat :=
  if b < 0x80 then some 1
  else if 0xC0 ≤ b && b < 0xE0 then some 2
  else if 0xE0 ≤ b && b < 0xF0 then some 3
  else if 0xF0 ≤ b && b < 0xF8 then some 4
  else none

/-- The bytes after the first one of an escaped character. -/
def escapedTail? : Nat → List Char → Option (List UInt8)
  | 0, _ => some []
  | n + 1, cs => do
    let b ← escapedByte? cs
    if 0x80 ≤ b && b < 0xC0 then return b :: (← escapedTail? n (cs.drop 3)) else none

/-- The bytes of a tag and the number of characters they were read from.  The first argument bounds
the number of steps. -/
def bytes? (verbatim : Bool) : Nat → List Char → Option (List UInt8 × Nat)
  | 0, _ => none
  | _ + 1, [] => some ([], 0)
  | fuel + 1, c :: cs =>
    if !isTagChar verbatim c then some ([], 0)
    else if c = '%' then do
      let b ← escapedByte? (c :: cs)
      let width ← width? b
      let tail ← escapedTail? (width - 1) (cs.drop 2)
      let (bs, used) ← bytes? verbatim fuel (cs.drop (3 * width - 1))
      return (b :: tail ++ bs, used + 3 * width)
    else do
      let (bs, used) ← bytes? verbatim fuel cs
      return (c.toNat.toUInt8 :: bs, used + 1)

/-- A run of tag characters as bytes. -/
def uri? (verbatim : Bool) (cur : Cursor) : Option (List UInt8 × Cursor) :=
  (bytes? verbatim (cur.rest.length + 1) cur.rest).map fun (bs, used) => (bs, cur.skip used)

/-- An exclamation mark and the word characters after it, and whether another one ends them. -/
def handle? (cur : Cursor) : Option (String × Bool × Cursor) :=
  match cur.rest with
  | '!' :: cs =>
    let word := cs.takeWhile isWordChar
    let cur := cur.skip (1 + word.length)
    if cur.sees '!' then some (String.ofList ('!' :: word ++ ['!']), true, cur.skip 1)
    else some (String.ofList ('!' :: word), false, cur)
  | _ => none

/-- A tag, which a blank or the end of a line ends, inside brackets also a comma. -/
def read? (inBrackets : Bool) (cur : Cursor) : Option (Tag × Cursor) := do
  let (tag, cur) ← read
  if endsWord cur.rest || (inBrackets && cur.sees ',') then some (tag, cur) else none
where
  read : Option (Tag × Cursor) := do
    if (cur.skip 1).sees '<' then
      let (suffix, cur) ← uri? true (cur.skip 2)
      if suffix.isEmpty || !cur.sees '>' then none else some (⟨"", suffix⟩, cur.skip 1)
    else
      let (handle, closed, cur) ← handle? cur
      let (bs, cur) ← uri? false cur
      if closed then
        if bs.isEmpty then none else some (⟨handle, bs⟩, cur)
      else
        let suffix := Utf8.encode (handle.drop 1).toString ++ bs
        if suffix.isEmpty then some (⟨"", [33]⟩, cur) else some (⟨"!", suffix⟩, cur)

end Tag

namespace Directive

/-- A number of at most nine digits. -/
private def number? (cur : Cursor) : Option (Nat × Cursor) :=
  let digits := cur.rest.takeWhile Char.isDigit
  if digits.isEmpty || 9 < digits.length then none
  else some (digits.foldl (fun n c => n * 10 + (c.toNat - 48)) 0, cur.skip digits.length)

private def version? (cur : Cursor) : Option (Directive × Cursor) := do
  let (major, cur) ← number? cur
  if !cur.sees '.' then none
  let (minor, cur) ← number? (cur.skip 1)
  return (.version major minor, cur)

private def tag? (cur : Cursor) : Option (Directive × Cursor) := do
  let (handle, closed, cur) ← Tag.handle? cur
  if !closed && handle != "!" then none
  if !(cur.rest.head?.any isBlank) then none
  let (stands, cur) ← Tag.uri? true (cur.skipWhile isBlank)
  if stands.isEmpty || !endsWord cur.rest then none
  return (.tag handle stands, cur)

/-- A directive, from what follows its percent sign, up to the end of its line. -/
def read? (cur : Cursor) : Option (Directive × Cursor) := do
  let name := cur.rest.takeWhile isWordChar
  let cur := cur.skip name.length
  if !endsWord cur.rest then none
  let cur := cur.skipWhile isBlank
  let (directive, cur) ←
    if name = "YAML".toList then version? cur
    else if name = "TAG".toList then tag? cur
    else none
  let cur := cur.skipComment
  if endsLine cur.rest then some (directive, cur.skipBreak) else none

end Directive

end HttpSuite.Yaml
