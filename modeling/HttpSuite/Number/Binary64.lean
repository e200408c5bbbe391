/-!
# Finite binary64 numbers

A finite binary64 number is an integral multiple of `2 ^ (-1074)`, so it is stored as its sign and
that multiple.  Every operation computes the exact rational result and rounds it once, to nearest
with ties to the even neighbour; an operation whose result is too large has no value.  Comparing two
numbers is comparing two integers.
-/

namespace HttpSuite

/-- The quotient `num / den` rounded to a natural number, a tie to the even one. -/
def roundDiv (num den : Nat) : Nat :=
  let quotient := num / den
  let twice := 2 * (num % den)
  if twice < den ∨ (twice = den ∧ quotient % 2 = 0) then quotient else quotient + 1

/-- A sign and a number of units of `2 ^ (-1074)`.  Zero has both signs. -/
structure Binary64 where
  negative : Bool
  units : Nat
deriving DecidableEq

namespace Binary64

/-- The number of units in one. -/
def one : Nat := Nat.pow 2 1074

/-- The first number of units that is too large: that of `2 ^ 1024`. -/
def limit : Nat := Nat.pow 2 2098

/-- The quotient `num / den` of units rounded to 53 significant bits. -/
def roundUnits (num den : Nat) : Nat :=
  let shift := (num / den).log2 - 52
  roundDiv num (den * Nat.pow 2 shift) * Nat.pow 2 shift

/-- The number nearest to `num / den` units, if it is not too large. -/
def ofUnits? (negative : Bool) (num den : Nat) : Option Binary64 :=
  let units := roundUnits num den
  if units < limit then some ⟨negative, units⟩ else none

def zero : Binary64 := ⟨false, 0⟩

instance : Inhabited Binary64 := ⟨zero⟩

/-- The number nearest to an integer below `2 ^ 1023` in size. -/
def ofInt (i : Int) : Binary64 := ⟨decide (i < 0), roundUnits (i.natAbs * one) 1⟩

def neg (x : Binary64) : Binary64 := ⟨!x.negative, x.units⟩

/-- The exact value in units. -/
def toInt (x : Binary64) : Int := if x.negative then -x.units else x.units

def isZero (x : Binary64) : Bool := x.units == 0

/-- The order of the exact values; the two zeros are equal. -/
def compare (x y : Binary64) : Ordering := Ord.compare x.toInt y.toInt

/-- The sum rounded once.  A sum that cancels is the positive zero. -/
def add? (x y : Binary64) : Option Binary64 :=
  let sum := x.toInt + y.toInt
  if sum = 0 then some ⟨x.negative && y.negative, 0⟩
  else ofUnits? (decide (sum < 0)) sum.natAbs 1

def mul? (x y : Binary64) : Option Binary64 :=
  ofUnits? (x.negative ^^ y.negative) (x.units * y.units) one

/-- The quotient; there is none by zero. -/
def div? (x y : Binary64) : Option Binary64 :=
  if y.isZero then none
  else ofUnits? (x.negative ^^ y.negative) (x.units * one) y.units

/-- The number nearest to `digits * 10 ^ exponent`, if it is not too large.  An exponent far outside
the range of the format decides the answer without computing the power. -/
def ofDecimal? (negative : Bool) (digits : Nat) (exponent : Int) : Option Binary64 :=
  let magnitude : Int := (Nat.toDigits 10 digits).length + exponent
  if digits = 0 ∨ magnitude < -330 then some ⟨negative, 0⟩
  else if 330 < magnitude then none
  else ofUnits? negative (digits * Nat.pow 10 exponent.toNat * one)
    (Nat.pow 10 (-exponent).toNat)

end Binary64

end HttpSuite
