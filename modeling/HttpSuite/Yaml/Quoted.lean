import HttpSuite.Text.Hex
import HttpSuite.Yaml.Gap

/-!
# Quoted scalars

In single quotes a quote is written twice and nothing else is special; in double quotes a backslash
starts an escape, and before a line break it joins the lines.  A document marker may not begin a
line of a quoted scalar.
-/

namespace HttpSuite.Yaml.Quoted

/-- The character of an escape of one letter. -/
def simpleEscape? : Char → Option Char
  | '0' => some '\x00'
  | 'a' => some '\x07'
  | 'b' => some '\x08'
  | 't' => some '\t'
  | '\t' => some '\t'
  | 'n' => some '\n'
  | 'v' => some '\x0b'
  | 'f' => some '\x0c'
  | 'r' => some '\r'
  | 'e' => some '\x1b'
  | ' ' => some ' '
  | '"' => some '"'
  | '/' => some '/'
  | '\\' => some '\\'
  | 'N' => some '\x85'
  | '_' => some '\xa0'
  | 'L' => some '\u2028'
  | 'P' => some '\u2029'
  | _ => none

/-- The number of hexadecimal digits after the letter of an escape. -/
def escapeDigits? : Char → Option Nat
  | 'x' => some 2
  | 'u' => some 4
  | 'U' => some 8
  | _ => none

/-- The character of an escape, from what follows its backslash, and the number of characters that
were read. -/
def escape? : List Char → Option (Char × Nat)
  | [] => none
  | c :: cs =>
    match escapeDigits? c with
    | none => (simpleEscape? c).map (·, 1)
    | some size =>
      if cs.length < size then none else (Text.hexChar? (cs.take size)).map (·, size + 1)

/-- The reversed value of a quoted scalar, from what follows its opening quote.  The value up to
here is `value` and the gap after it `gap`. -/
def read? (single : Bool) (value : List Char) (gap : Gap) (cur : Cursor) :
    Option (List Char × Cursor) :=
  let quote := if single then '\'' else '"'
  match _h : cur.rest with
  | [] => none
  | c :: cs =>
    if cur.seesDocumentMarker then none
    else if isBlank c then read? single value (gap.addBlank c) (cur.skip 1)
    else if _hb : isBreak c then read? single value (gap.addBreak cur.takeBreak.1) cur.takeBreak.2
    else if c = quote then
      if single && cs.head? == some quote then
        read? single (quote :: gap.after value) .empty (cur.skip 2)
      else some (gap.after value, cur.skip 1)
    else if c = '\\' ∧ !single then
      if isBreak (cs.headD ' ') then
        read? single (gap.after value) .escaped (cur.skip 1).skipBreak
      else
        match escape? cs with
        | none => none
        | some (e, used) => read? single (e :: gap.after value) .empty (cur.skip (used + 1))
    else read? single (c :: gap.after value) .empty (cur.skip 1)
termination_by cur.rest.length
decreasing_by
  all_goals first
    | exact Cursor.length_skip (by omega) (by simp [_h])
    | exact Cursor.length_takeBreak _h _hb
    | exact Nat.lt_of_le_of_lt (Cursor.length_skipBreak_le _)
        (Cursor.length_skip Nat.one_pos (by simp [_h]))

end HttpSuite.Yaml.Quoted
