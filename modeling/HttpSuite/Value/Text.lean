import HttpSuite.Number.Shortest
import HttpSuite.Value

/-!
# Values as text

`Value.toText` is the compact JSON text of a value, `Value.render` the form in which it is spliced
into a larger text: a string as it is, null as nothing, and everything else as its compact text.
-/

namespace HttpSuite

private def hexDigit (n : Nat) : Char := (Nat.digitChar n)

/-- One character inside a quoted text.  Only the quote, the backslash and the control characters
below the blank are escaped. -/
def escapeChar (c : Char) : String :=
  match c with
  | '"' => "\\\""
  | '\\' => "\\\\"
  | '\n' => "\\n"
  | '\r' => "\\r"
  | '\t' => "\\t"
  | _ =>
    let n := c.toNat
    if n = 8 then "\\b"
    else if n = 12 then "\\f"
    else if n < 32 then
      "\\u00" ++ String.ofList [hexDigit (n / 16), hexDigit (n % 16)]
    else c.toString

/-- A text in quotes. -/
def quote (s : String) : String :=
  s.toList.foldl (fun acc c => acc ++ escapeChar c) "\"" ++ "\""

def Number.toText : Number → String
  | .int i => toString i
  | .float x => x.toText

namespace Value

mutual

/-- The compact JSON text: no blanks, fields in their order. -/
def toText : Value → String
  | .null => "null"
  | .bool b => if b then "true" else "false"
  | .number n => n.toText
  | .string s => quote s
  | .array items => "[" ++ String.intercalate "," (itemTexts items) ++ "]"
  | .object fields => "\x7b" ++ String.intercalate "," (fieldTexts fields) ++ "\x7d"

def itemTexts : List Value → List String
  | [] => []
  | v :: rest => v.toText :: itemTexts rest

def fieldTexts : List (String × Value) → List String
  | [] => []
  | (key, v) :: rest => (quote key ++ ":" ++ v.toText) :: fieldTexts rest

end

/-- The text spliced into a larger text. -/
def render : Value → String
  | .null => ""
  | .string s => s
  | v => v.toText

end Value

end HttpSuite
