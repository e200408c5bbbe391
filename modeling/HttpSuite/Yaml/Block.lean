import HttpSuite.Yaml.Cursor

/-!
# Block scalars

A block scalar is a run of lines indented to one column, which its header or its first line sets.  A
literal scalar keeps its line breaks; a folded one joins two lines that begin without a blank by a
space, or by the breaks of the empty lines between them.  The header says which of the line breaks
at the end are kept.
-/

namespace HttpSuite.Yaml.Block

/-- Which line breaks at the end of a block scalar are kept. -/
inductive Ending where
  | none
  | one
  | all

structure Header where
  ending : Ending
  /-- The indentation relative to the enclosing block. -/
  indent : Option Nat

private def ending? : Char → Option Ending
  | '+' => some .all
  | '-' => some .none
  | _ => none

/-- A header of at most one ending and one digit, in either order.  An indentation of zero is an
error. -/
def header? (cur : Cursor) : Option (Header × Cursor) :=
  let digit? (c : Char) : Option Nat := if c.isDigit then some (c.toNat - 48) else none
  let found : Header × Nat :=
    match cur.rest with
    | [] => (⟨.one, none⟩, 0)
    | c :: cs =>
      match ending? c, digit? c with
      | some e, _ =>
        match cs.head?.bind digit? with
        | some n => (⟨e, some n⟩, 2)
        | none => (⟨e, none⟩, 1)
      | none, some n =>
        match cs.head?.bind ending? with
        | some e => (⟨e, some n⟩, 2)
        | none => (⟨.one, some n⟩, 1)
      | none, none => (⟨.one, none⟩, 0)
  if found.1.indent = some 0 then none else some (found.1, cur.skip found.2)

/-- Reads the indentation of the next line that is not empty, and the breaks of the empty lines
before it.  No more than `indent` blanks belong to it, if that is known, and no tab may stand among
them; `widest` is the widest indentation seen. -/
def readMargin? (indent : Option Nat) (widest : Nat) (breaks : List Char) (cur : Cursor) :
    Option (Nat × List Char × Cursor) :=
  let inMargin := indent.all (cur.column < ·)
  match _h : cur.rest with
  | [] => some (max widest cur.column, breaks, cur)
  | c :: _ =>
    if inMargin && c == ' ' then readMargin? indent widest breaks (cur.skip 1)
    else if inMargin && c == '\t' then none
    else if _hb : isBreak c then
      readMargin? indent (max widest cur.column) (breaks ++ cur.takeBreak.1) cur.takeBreak.2
    else some (max widest cur.column, breaks, cur)
termination_by cur.rest.length
decreasing_by
  · exact Cursor.length_skip Nat.one_pos (by simp [_h])
  · exact Cursor.length_takeBreak _h _hb

/-- The part of a block scalar that has been read. -/
structure Lines where
  /-- The value, reversed. -/
  value : List Char
  /-- The break of the last line. -/
  last : List Char
  /-- The breaks of the empty lines after it. -/
  breaks : List Char
  /-- Whether the last line began with a blank. -/
  blank : Bool

/-- The value before the next line, reversed. -/
def Lines.joined (literal blank : Bool) (lines : Lines) : List Char :=
  let last :=
    if !literal && lines.last == ['\n'] && !lines.blank && !blank then
      if lines.breaks.isEmpty then [' '] else []
    else lines.last
  lines.breaks.reverse ++ last.reverse ++ lines.value

/-- The lines of a block scalar from the first one that is not empty.  The first argument bounds
their number. -/
def readLines? (literal : Bool) (indent : Nat) : Nat → Lines → Cursor → Option (Lines × Cursor)
  | 0, _, _ => none
  | fuel + 1, lines, cur =>
    match cur.rest with
    | [] => some (lines, cur)
    | c :: _ =>
      if cur.column ≠ indent then some (lines, cur)
      else
        let text := cur.rest.takeWhile (!isBreak ·)
        let (last, cur) := (cur.skip text.length).takeBreak
        match readMargin? (some indent) 0 [] cur with
        | none => none
        | some (_, breaks, cur) =>
          let value := text.reverse ++ lines.joined literal (isBlank c)
          readLines? literal indent fuel ⟨value, last, breaks, isBlank c⟩ cur

/-- The value of a block scalar, from what follows its first character.  The enclosing block is
indented to the column `margin - 1`, or there is none and `margin` is 0. -/
def read? (literal : Bool) (margin : Nat) (cur : Cursor) : Option (List Char × Cursor) := do
  let (header, cur) ← header? cur
  let cur := cur.skipComment
  if !endsLine cur.rest then none
  let cur := cur.skipBreak
  let given := header.indent.map (· + (margin - 1))
  let (widest, breaks, cur) ← readMargin? given 0 [] cur
  let indent := given.getD (max widest (max margin 1))
  let (lines, cur) ← readLines? literal indent (cur.rest.length + 1) ⟨[], [], breaks, false⟩ cur
  let ending := match header.ending with
    | .none => []
    | .one => lines.last
    | .all => lines.last ++ lines.breaks
  return (lines.value.reverse ++ ending, cur)

end HttpSuite.Yaml.Block
