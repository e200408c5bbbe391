import HttpSuite.Text.Blank
import HttpSuite.Text.CaseFolding
import HttpSuite.Text.Category

/-!
# Regular expressions

Whether an expression matches somewhere in a text.  Only the existence of a match is asked for, so
an expression is run on sets of positions: `Regex.advance` takes the positions before a part of the
text to the positions after it.  A set of positions is a natural number with one bit for each.
-/

namespace HttpSuite

/-- A set of characters, given by code points. -/
inductive CharSet where
  | range (first last : Nat)
  | runs (ranges : List (Nat × Nat))
  | union (a b : CharSet)
  | intersection (a b : CharSet)
  | difference (a b : CharSet)
  | symmetricDifference (a b : CharSet)
  | complement (a : CharSet)
  /-- The characters with a case variant in the set. -/
  | folded (a : CharSet)

namespace CharSet

def none : CharSet := .runs []

def single (c : Char) : CharSet := .range c.toNat c.toNat

def mem (s : CharSet) (n : Nat) : Bool := match s with
  | range first last => first ≤ n && n ≤ last
  | runs ranges => ranges.any fun r => r.1 ≤ n && n ≤ r.2
  | union a b => a.mem n || b.mem n
  | intersection a b => a.mem n && b.mem n
  | difference a b => a.mem n && !b.mem n
  | symmetricDifference a b => a.mem n ^^ b.mem n
  | complement a => !a.mem n
  | folded a => (Text.variants n).any fun m => a.mem m

/-- About the number of runs of code points in the set. -/
def runCount : CharSet → Nat
  | range .. => 1
  | runs ranges => ranges.length
  | union a b => a.runCount + b.runCount
  | intersection a b => a.runCount + b.runCount
  | difference a b => a.runCount + b.runCount
  | symmetricDifference a b => a.runCount + b.runCount
  | complement a => a.runCount + 1
  | folded a => 2 * a.runCount

def digit : CharSet := .runs Text.digitRanges

def word : CharSet := .runs Text.wordRanges

def blank : CharSet := .runs Text.blankRanges

end CharSet

/-- A condition on a position. -/
inductive Boundary where
  | textStart
  | textEnd
  | lineStart
  | lineEnd
  /-- A start of a line where a carriage return, alone or before a line feed, ends lines too. -/
  | returnedStart
  | returnedEnd
  /-- Between a character of the set and one outside it, or the end of the text. -/
  | edge (word : CharSet)
  | noEdge (word : CharSet)
  | wordStart (word : CharSet)
  | wordEnd (word : CharSet)
  /-- No character of the set before it. -/
  | halfStart (word : CharSet)
  /-- No character of the set after it. -/
  | halfEnd (word : CharSet)

inductive Regex where
  | empty
  | set (s : CharSet)
  | boundary (b : Boundary)
  | sequence (a b : Regex)
  | either (a b : Regex)
  | repeated (r : Regex) (least : Nat) (most : Option Nat)

namespace Boundary

/-- Whether the condition holds between a character and the next one. -/
def holds (before after : Option Nat) : Boundary → Bool
  | textStart => before.isNone
  | textEnd => after.isNone
  | lineStart => before.all (· == 10)
  | lineEnd => after.all (· == 10)
  | returnedStart => before.all (· == 10) || (before == some 13 && after != some 10)
  | returnedEnd => after.all (· == 13) || (after == some 10 && before != some 13)
  | edge w => before.any (w.mem ·) != after.any (w.mem ·)
  | noEdge w => before.any (w.mem ·) == after.any (w.mem ·)
  | wordStart w => !before.any (w.mem ·) && after.any (w.mem ·)
  | wordEnd w => before.any (w.mem ·) && !after.any (w.mem ·)
  | halfStart w => !before.any (w.mem ·)
  | halfEnd w => !after.any (w.mem ·)

end Boundary

namespace Regex

/-- The set of the positions up to `n` with a property. -/
def positions (n : Nat) (p : Nat → Bool) : Nat :=
  (List.range (n + 1)).foldl (fun places i => if p i then places ||| 1 <<< i else places) 0

/-- The size of an expression when its counts are written out: a character counts one, and a class
two for each of its runs beyond the first. -/
def size : Regex → Nat
  | empty => 0
  | set s => 2 * s.runCount - 1
  | boundary _ => 1
  | sequence a b => a.size + b.size
  | either a b => a.size + b.size + 1
  | repeated r least most => (r.size + 1) * max 1 (max least (most.getD 0))

/-- The largest size of an expression. -/
def maxSize : Nat := 327680

/-- A step taken a number of times. -/
def times (step : Nat → Nat) : Nat → Nat → Nat
  | 0, places => places
  | n + 1, places => times step n (step places)

/-- The positions reached by at most a number of steps.  Once a step adds nothing, no later one
does. -/
def upTo (step : Nat → Nat) : Nat → Nat → Nat
  | 0, places => places
  | n + 1, places =>
    let reached := places ||| step places
    if reached = places then places else upTo step n reached

/-- The positions after a match that starts at a position of the set. -/
def advance (text : Array Nat) : Regex → Nat → Nat
  | empty, places => places
  | set s, places => (places &&& positions text.size fun i => text[i]?.any (s.mem ·)) <<< 1
  | boundary b, places =>
    places &&& positions text.size fun i =>
      b.holds (if i = 0 then none else text[i - 1]?) text[i]?
  | sequence a b, places => b.advance text (a.advance text places)
  | either a b, places => a.advance text places ||| b.advance text places
  | repeated r least most, places =>
    let after := times (r.advance text) least places
    let rounds := text.size + 1
    upTo (r.advance text) ((most.map fun m => min rounds (m - least)).getD rounds) after

/-- Whether the expression matches somewhere in a text. -/
def matchesIn (r : Regex) (text : String) : Bool :=
  let chars := (text.toList.map Char.toNat).toArray
  r.advance chars (positions chars.size fun _ => true) != 0

end Regex

end HttpSuite
