/-!
# Runs of code points

A set of code points is written as numbers between blanks: by turns how many code points are passed
over and how many are in the next run.
-/

namespace HttpSuite.Text

/-- The first and last code point of each run, the first gap starting at `start`. -/
def runsFrom (start : Nat) : List Nat → List (Nat × Nat)
  | gap :: size :: rest =>
    (start + gap, start + gap + size - 1) :: runsFrom (start + gap + size) rest
  | _ => []

/-- The runs written on some lines. -/
def ofRuns (lines : List String) : List (Nat × Nat) :=
  runsFrom 0 (lines.flatMap fun line => (line.splitOn " ").filterMap String.toNat?)

end HttpSuite.Text
