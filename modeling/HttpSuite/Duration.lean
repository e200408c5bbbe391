import HttpSuite.Number.Binary64

/-!
# Durations

A duration is a whole number of nanoseconds and shorter than `2 ^ 64` seconds.  A number of seconds
is rounded to the nearest nanosecond.
-/

namespace HttpSuite

structure Duration where
  nanoseconds : Nat
deriving DecidableEq

namespace Duration

/-- The first number of nanoseconds that is too long. -/
def limit : Nat := Nat.pow 2 64 * Nat.pow 10 9

def ofMilliseconds (n : Nat) : Duration := ⟨n * Nat.pow 10 6⟩

/-- A number of seconds that is not negative, unless it is too long. -/
def ofSeconds? (x : Binary64) : Option Duration :=
  let n := roundDiv (x.units * Nat.pow 10 9) Binary64.one
  if n < limit ∧ (x.units = 0 ∨ !x.negative) then some ⟨n⟩ else none

def seconds (d : Duration) : Nat := d.nanoseconds / Nat.pow 10 9

/-- The nanoseconds beyond the whole seconds. -/
def fraction (d : Duration) : Nat := d.nanoseconds % Nat.pow 10 9

/-- The least number of milliseconds that is not shorter. -/
def milliseconds (d : Duration) : Nat :=
  d.nanoseconds / Nat.pow 10 6 + if d.nanoseconds % Nat.pow 10 6 = 0 then 0 else 1

/-- The duration as a number of seconds: the whole seconds plus the rounded rest. -/
def toSeconds? (d : Duration) : Option Binary64 := do
  let rest ← (Binary64.ofInt d.fraction).div? (Binary64.ofInt (Nat.pow 10 9))
  (Binary64.ofInt d.seconds).add? rest

/-- The duration times a factor, unless that is negative or too long. -/
def times? (d : Duration) (factor : Binary64) : Option Duration := do
  let product ← factor.mul? (← d.toSeconds?)
  ofSeconds? product

def min (d e : Duration) : Duration := ⟨Nat.min d.nanoseconds e.nanoseconds⟩

private def decimal (n places : Nat) (unit : String) : String :=
  let digits := Nat.toDigits 10 (n % Nat.pow 10 places)
  let padded := List.replicate (places - digits.length) '0' ++ digits
  let fraction := (padded.reverse.dropWhile (· == '0')).reverse
  let point := if fraction.isEmpty then "" else "." ++ String.ofList fraction
  toString (n / Nat.pow 10 places) ++ point ++ unit

/-- The duration in the largest unit that gives a whole part, without trailing zeros. -/
def toText (d : Duration) : String :=
  let n := d.nanoseconds
  if Nat.pow 10 9 ≤ n then decimal n 9 "s"
  else if Nat.pow 10 6 ≤ n then decimal n 6 "ms"
  else if Nat.pow 10 3 ≤ n then decimal n 3 "µs"
  else toString n ++ "ns"

end Duration

end HttpSuite
