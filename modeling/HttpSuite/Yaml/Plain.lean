import HttpSuite.Yaml.Gap

/-!
# Plain scalars

A plain scalar ends before a comment, before `: `, before a document marker, before a line that is
indented too little, and inside brackets before a comma or a bracket.
-/

namespace HttpSuite.Yaml.Plain

/-- The characters that end a plain scalar inside brackets. -/
def isBracket (c : Char) : Bool :=
  c == ',' || c == '[' || c == ']' || c == '\x7b' || c == '\x7d'

/-- Whether a plain scalar ends before these characters. -/
def ends (inBrackets : Bool) : List Char → Bool
  | [] => true
  | c :: cs => (c == ':' && endsWord cs) || (inBrackets && isBracket c)

/-- Whether a colon inside brackets has one of the characters after it that may not follow it. -/
def isBadColon (inBrackets : Bool) : List Char → Bool
  | ':' :: c :: _ => inBrackets && (isBracket c || c == '?')
  | _ => false

/-- The reversed value of a plain scalar and whether line breaks follow it.  Its lines are indented
to the column `margin`, unless it is inside brackets; in either case no tab stands before that
column. The value up to here is `value` and the gap after it `gap`. -/
def read? (inBrackets : Bool) (margin : Nat) (value : List Char) (gap : Gap) (cur : Cursor) :
    Option (List Char × Bool × Cursor) :=
  match _h : cur.rest with
  | [] => some (value, gap.broken, cur)
  | c :: cs =>
    if isBlank c then
      if gap.broken && cur.column < margin && c == '\t' then none
      else read? inBrackets margin value (gap.addBlank c) (cur.skip 1)
    else if _hb : isBreak c then
      read? inBrackets margin value (gap.addBreak cur.takeBreak.1) cur.takeBreak.2
    else if !gap.isEmpty && !inBrackets && cur.column < margin then some (value, gap.broken, cur)
    else if cur.seesDocumentMarker || (!gap.isEmpty && c == '#') then
      some (value, gap.broken, cur)
    else if isBadColon inBrackets (c :: cs) then none
    else if ends inBrackets (c :: cs) then some (value, gap.broken, cur)
    else read? inBrackets margin (c :: gap.after value) .empty (cur.skip 1)
termination_by cur.rest.length
decreasing_by
  all_goals first
    | exact Cursor.length_skip Nat.one_pos (by simp [_h])
    | exact Cursor.length_takeBreak _h _hb

end HttpSuite.Yaml.Plain
