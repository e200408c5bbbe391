import HttpSuite.Text.Blank
import HttpSuite.Text.Category
import HttpSuite.Text.Script

/-!
# Character properties by name

A property is named by a general category, in its short or long form, by a script, or by one of a
few properties of their own.  Letter case, blanks, hyphens and underscores in a name do not count.
-/

namespace HttpSuite.Text

/-- The two-letter categories of each category name; a name of one letter takes all that start with
it. -/
private def categoryNames : List (String × List String) := [
  ("letter", ["L"]), ("casedletter", ["Lu", "Ll", "Lt"]), ("lc", ["Lu", "Ll", "Lt"]),
  ("uppercaseletter", ["Lu"]), ("lowercaseletter", ["Ll"]), ("titlecaseletter", ["Lt"]),
  ("modifierletter", ["Lm"]), ("otherletter", ["Lo"]), ("mark", ["M"]),
  ("combiningmark", ["M"]), ("nonspacingmark", ["Mn"]), ("spacingmark", ["Mc"]),
  ("enclosingmark", ["Me"]), ("number", ["N"]), ("decimalnumber", ["Nd"]), ("digit", ["Nd"]),
  ("letternumber", ["Nl"]), ("othernumber", ["No"]), ("punctuation", ["P"]), ("punct", ["P"]),
  ("connectorpunctuation", ["Pc"]), ("dashpunctuation", ["Pd"]), ("openpunctuation", ["Ps"]),
  ("closepunctuation", ["Pe"]), ("initialpunctuation", ["Pi"]), ("finalpunctuation", ["Pf"]),
  ("otherpunctuation", ["Po"]), ("symbol", ["S"]), ("mathsymbol", ["Sm"]),
  ("currencysymbol", ["Sc"]), ("modifiersymbol", ["Sk"]), ("othersymbol", ["So"]),
  ("separator", ["Z"]), ("spaceseparator", ["Zs"]), ("lineseparator", ["Zl"]),
  ("paragraphseparator", ["Zp"]), ("other", ["C"]), ("control", ["Cc"]), ("cntrl", ["Cc"]),
  ("format", ["Cf"]), ("privateuse", ["Co"]), ("unassigned", ["Cn"])]

private def shortNames : List String := [
  "L", "Lu", "Ll", "Lt", "Lm", "Lo", "M", "Mn", "Mc", "Me", "N", "Nd", "Nl", "No", "P", "Pc", "Pd",
  "Ps", "Pe", "Pi", "Pf", "Po", "S", "Sm", "Sc", "Sk", "So", "Z", "Zs", "Zl", "Zp", "C", "Cc", "Cf",
  "Co", "Cn"]

/-- The characters that count as letters of words beside letters and letter numbers. -/
private def otherAlphabetic : List String := [
  "837 1 618 14 1 1 1 2 1 2 1 1 72 11 48 13 1 7 16 1 101 7 4 4 2 2 4 1 35 1 30 16 102 11 101",
  "2 3 9 1 3 1 4 167 12 3 7 6 20 54 2 2 15 1 2 5 3 10 2 29 3 58 7 2 2 2 2 10 1 10 2 29 3 58 5",
  "4 2 2 2 4 1 30 2 3 1 11 3 58 8 1 3 1 2 21 2 22 3 4 3 58 7 2 2 2 2 9 2 10 2 30 1 59 5 3 3 1",
  "3 10 1 40 5 57 7 1 3 1 3 8 2 11 2 29 3 58 7 1 3 1 3 8 2 11 2 15 1 12 4 58 7 1 3 1 3 10 1",
  "10 2 29 3 75 6 1 1 1 8 18 2 61 1 2 7 18 1 99 1 2 6 1 2 16 1 163 19 9 11 1 36 110 12 1 1 2",
  "4 23 4 4 3 1 3 2 7 3 4 13 12 1 1 10 4 1652 2 30 2 30 2 30 2 66 19 188 2 34 1 118 12 4 9",
  "222 5 57 10 2 20 74 2 11 3 49 5 48 15 60 3 30 9 2 2 57 11 50 19 432 14 1729 52 2294 32",
  "30836 8 34 2 354 1 8 1 23 5 88 2 50 16 1 1 57 1 38 5 28 12 45 4 48 12 37 1 67 14 12 1 8 2",
  "45 3 50 1 1 3 2 2 5 1 44 5 5 1 237 8 20275 1 2135 5 1670 3 1 2 5 4 788 4 387 2 339 3 53 14",
  "45 2 11 3 45 9 9 1 61 3 36 12 18 2 57 3 48 13 14 2 92 9 2 1 6 1 2 1 157 10 23 4 58 7 2 2 2",
  "2 10 1 10 2 209 13 1 3 106 18 237 7 2 7 29 2 82 15 1 1 106 11 103 14 257 13 247 6 1 2 2 2",
  "3 1 1 1 142 7 2 6 4 1 28 10 42 5 1 4 18 11 46 14 407 8 1 7 83 22 1 14 122 6 3 1 1 2 1 3 1",
  "1 3 1 66 5 1 2 1 4 348 4 9 2 1 1 48 7 3 3 20494 1 1 55 7 4 93 2 19628 1 9057 7 1 17 2 7 1",
  "2 1 5 100 1 2231 1 2024 26 6 26 6 26"]

/-- The characters that count as small letters beside the small letters. -/
private def otherLowercase : List String := [
  "170 1 15 1 501 9 7 2 30 5 96 1 52 1 3457 1 3119 63 13 1 34 37 689 1 13 1 16 13 211 16 848",
  "26 1938 2 31262 2 210 1 129 3 3 2 866 4 9 1 23574 1 2 3 1 42 1 9 55413 62"]

/-- The characters that count as capitals beside the capitals. -/
private def otherUppercase : List (Nat × Nat) :=
  [(0x2160, 0x216F), (0x24B6, 0x24CF), (0x1F130, 0x1F149), (0x1F150, 0x1F169), (0x1F170, 0x1F189)]

private def ofCategories (wanted : List String) : List (Nat × Nat) :=
  categoryRanges fun c => wanted.any fun w => c.startsWith w

/-- The characters with the property Alphabetic. -/
def alphabeticRanges : List (Nat × Nat) := ofCategories ["L", "Nl"] ++ ofRuns otherAlphabetic

/-- The numbers of every kind. -/
def numericRanges : List (Nat × Nat) := ofCategories ["N"]

private def lowered (name : String) : String := String.ofList (name.toList.map Char.toLower)

/-- A name in small letters without blanks, hyphens, underscores and a leading "is". -/
private def normalized (name : String) : String :=
  let cs := name.toList.filter fun c => c.toNat < 128 && c != ' ' && c != '-' && c != '_'
  let cs := cs.map Char.toLower
  match cs with
  | 'i' :: 's' :: c :: r => String.ofList (c :: r)
  | _ => String.ofList cs

/-- The code points of a general category. -/
private def generalCategory? (name : String) : Option (List (Nat × Nat)) :=
  match shortNames.find? fun s => lowered s = name with
  | some short => some (ofCategories [short])
  | none =>
    match categoryNames.find? fun entry => entry.1 = name with
    | some (_, wanted) => some (ofCategories wanted)
    | none =>
      match name with
      | "any" => some [(0, 0x10FFFF)]
      | "ascii" => some [(0, 127)]
      | "assigned" => some (categoryRanges (· != "Cn"))
      | _ => none

/-- The code points of a property that characters have or lack. -/
private def flag? (name : String) : Option (List (Nat × Nat)) :=
  match name with
  | "whitespace" | "space" | "wspace" => some blankRanges
  | "alphabetic" | "alpha" => some alphabeticRanges
  | "uppercase" | "upper" => some (ofCategories ["Lu"] ++ otherUppercase)
  | "lowercase" | "lower" => some (ofCategories ["Ll"] ++ ofRuns otherLowercase)
  | _ => none

/-- The code points of a property, written as a name or as a kind of property, a colon or an equals
sign, and a name. -/
def propertyRanges? (written : String) : Option (List (Nat × Nat)) :=
  let mark := if written.contains ':' then ":" else "="
  match (written.splitOn mark).map normalized with
  | [name] => flag? name <|> generalCategory? name <|> scriptRanges? name
  | [kind, name] =>
    if kind = "gc" ∨ kind = "generalcategory" then generalCategory? name
    else if kind = "sc" ∨ kind = "script" then scriptRanges? name
    else none
  | _ => none

end HttpSuite.Text
