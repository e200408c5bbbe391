import HttpSuite.Yaml.Cursor

/-!
# Gaps inside a scalar

Between two words of a plain or quoted scalar stand blanks, or line breaks with blanks around them.
A gap within a line is kept; the first line break of a gap becomes one space, unless more breaks
follow, which are kept in its place.
-/

namespace HttpSuite.Yaml

structure Gap where
  /-- The blanks before the first line break. -/
  blanks : List Char
  broken : Bool
  /-- The first line break; there is none if it was escaped. -/
  first : List Char
  /-- The line breaks after the first one. -/
  more : List Char

namespace Gap

/-- The gap between two characters of a word. -/
def empty : Gap := ⟨[], false, [], []⟩

/-- The gap that an escaped line break begins. -/
def escaped : Gap := ⟨[], true, [], []⟩

def isEmpty (gap : Gap) : Bool := gap.blanks.isEmpty && !gap.broken

/-- What stands for the gap in the value of the scalar. -/
def text (gap : Gap) : List Char :=
  if !gap.broken then gap.blanks
  else if gap.first = ['\n'] then if gap.more.isEmpty then [' '] else gap.more
  else gap.first ++ gap.more

def addBlank (c : Char) (gap : Gap) : Gap :=
  if gap.broken then gap else { gap with blanks := gap.blanks ++ [c] }

def addBreak (b : List Char) (gap : Gap) : Gap :=
  if gap.broken then { gap with more := gap.more ++ b } else ⟨[], true, b, []⟩

/-- The reversed value of a scalar after the gap. -/
def after (gap : Gap) (value : List Char) : List Char := gap.text.reverse ++ value

end Gap

end HttpSuite.Yaml
