/-!
# A place in a text

A `Cursor` is what is left of a text, with the number of characters before it and the line and
column where it begins.  Reading moves it forward over single characters and over line breaks; a
break of two characters is one line.
-/

namespace HttpSuite.Yaml

def isBlank (c : Char) : Bool := c == ' ' || c == '\t'

def isBreak (c : Char) : Bool :=
  c == '\n' || c == '\r' || c == '\x85' || c == '\u2028' || c == '\u2029'

/-- The characters of anchors, handles and directive names. -/
def isWordChar (c : Char) : Bool := c.isAlphanum || c == '_' || c == '-'

/-- Whether a blank, a line break or the end of the text comes next. -/
def endsWord : List Char → Bool
  | [] => true
  | c :: _ => isBlank c || isBreak c

/-- Whether a line break or the end of the text comes next. -/
def endsLine : List Char → Bool
  | [] => true
  | c :: _ => isBreak c

structure Cursor where
  rest : List Char
  index : Nat
  line : Nat
  column : Nat

namespace Cursor

def ofText (cs : List Char) : Cursor := ⟨cs, 0, 0, 0⟩

/-- Moves over some characters of a line. -/
def skip (n : Nat) (cur : Cursor) : Cursor :=
  { cur with rest := cur.rest.drop n, index := cur.index + n, column := cur.column + n }

/-- Moves over the characters of a line that satisfy a test. -/
def skipWhile (p : Char → Bool) (cur : Cursor) : Cursor := cur.skip (cur.rest.takeWhile p).length

/-- Whether a character comes next. -/
def sees (c : Char) (cur : Cursor) : Bool := cur.rest.head? == some c

/-- Moves over a line break, if one comes next, and gives the break that it stands for.  The breaks
of one line feed, one or two returns or a next-line character all stand for a line feed. -/
def takeBreak (cur : Cursor) : List Char × Cursor :=
  match cur.rest with
  | '\r' :: '\n' :: rest => (['\n'], ⟨rest, cur.index + 2, cur.line + 1, 0⟩)
  | c :: rest =>
    if c = '\u2028' ∨ c = '\u2029' then ([c], ⟨rest, cur.index + 1, cur.line + 1, 0⟩)
    else if isBreak c then (['\n'], ⟨rest, cur.index + 1, cur.line + 1, 0⟩)
    else ([], cur)
  | [] => ([], cur)

def skipBreak (cur : Cursor) : Cursor := cur.takeBreak.2

/-- Moves over blanks and a comment to the end of the line. -/
def skipComment (cur : Cursor) : Cursor :=
  let cur := cur.skipWhile isBlank
  if cur.sees '#' then cur.skipWhile (!isBreak ·) else cur

/-- Whether a line begins here with three of some character and nothing else on the word. -/
def seesMarker (c : Char) (cur : Cursor) : Bool :=
  cur.column == 0 && cur.rest.take 3 == [c, c, c] && endsWord (cur.rest.drop 3)

/-- Whether the line begins or ends a document. -/
def seesDocumentMarker (cur : Cursor) : Bool := cur.seesMarker '-' || cur.seesMarker '.'

theorem length_skip {cur : Cursor} {n : Nat} (h : 0 < n) (hr : cur.rest ≠ []) :
    (cur.skip n).rest.length < cur.rest.length := by
  have := List.length_pos_iff.mpr hr
  simp only [skip, List.length_drop]
  omega

theorem length_takeBreak {cur : Cursor} {c : Char} {rest : List Char} (h : cur.rest = c :: rest)
    (hc : isBreak c = true) : cur.takeBreak.2.rest.length < cur.rest.length := by
  unfold takeBreak
  split
  · rename_i e; rw [e]; simp only [List.length_cons]; omega
  · rename_i d rest' _ e
    obtain ⟨rfl, rfl⟩ : c = d ∧ rest = rest' := by rw [h] at e; simpa using e
    split
    · rw [e]; simp
    · simp [e]
  · rename_i e; rw [h] at e; simp at e

theorem length_skipBreak_le (cur : Cursor) : cur.skipBreak.rest.length ≤ cur.rest.length := by
  unfold skipBreak takeBreak
  split
  · rename_i e; rw [e]; simp only [List.length_cons]; omega
  · rename_i e; split
    · simp [e]
    · split <;> simp [e]
  · simp

end Cursor

end HttpSuite.Yaml
