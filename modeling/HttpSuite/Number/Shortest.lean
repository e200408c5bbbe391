import HttpSuite.Number.Binary64

/-!
# The fewest digits that read back

A number stands for the interval of reals that round to it.  Its digits are those of the shortest
decimal in that interval, and of several that short the one nearest to it.  They are laid out
positionally between `1e-5` and `1e16` and with a signed exponent elsewhere.
-/

namespace HttpSuite.Binary64

/-- The decimal `0.digits * 10 ^ point`, without a trailing zero. -/
structure Digits where
  digits : List Char
  point : Int

/-- Whether `num / den` units round to the number of `units`: it lies between the midpoints to the
two neighbours, a midpoint itself counting when the significand is even. -/
def readsBack (units num den : Nat) : Bool :=
  let gap := Nat.pow 2 (units.log2 - 52)
  let gapBelow := if units = Nat.pow 2 52 * gap ∧ 1 < gap then gap / 2 else gap
  let low := (2 * units - gapBelow) * den
  let high := (2 * units + gap) * den
  if units / gap % 2 = 0 then low ≤ 2 * num && 2 * num ≤ high
  else low < 2 * num && 2 * num < high

/-- The least `k` such that the value is below `10 ^ k`. -/
def pointOf (units : Nat) : Int :=
  if one ≤ units then (Nat.toDigits 10 (units / one)).length
  else 1 - (((List.range 330).find? fun j => one ≤ units * Nat.pow 10 j).getD 330 : Nat)

/-- The decimal of `count` digits nearest to the value, if it or its neighbour reads back. -/
def candidate? (units : Nat) (point : Int) (count : Nat) : Option Nat :=
  let exponent := point - count
  let up := Nat.pow 10 exponent.toNat
  let down := Nat.pow 10 (-exponent).toNat
  let lower := units * down / (up * one)
  let nearness (d : Nat) : Int := ((d * up * one : Int) - units * down).natAbs
  let hits := [lower, lower + 1].filter fun d => readsBack units (d * up * one) down
  match hits with
  | [] => none
  | [d] => some d
  | d :: e :: _ =>
    if nearness d < nearness e ∨ (nearness d = nearness e ∧ d % 2 = 0) then some d else some e

private def trimZeros (ds : List Char) : List Char :=
  (ds.reverse.dropWhile (· == '0')).reverse

/-- The fewest digits of a number that is not zero.  Seventeen always suffice. -/
def shortest (units : Nat) : Digits :=
  let point := pointOf units
  let found := (List.range 17).findSome? fun i =>
    (candidate? units point (i + 1)).map fun d => (d, i + 1)
  let (d, count) := found.getD (units, 0)
  let ds := Nat.toDigits 10 d
  ⟨trimZeros ds, point + (ds.length - count : Int)⟩

private def zeros (n : Nat) : List Char := List.replicate n '0'

/-- Positional layout, always with a point and a digit on each side of it. -/
def Digits.positional (d : Digits) : List Char :=
  if d.point ≤ 0 then '0' :: '.' :: zeros (-d.point).toNat ++ d.digits
  else
    let n := d.point.toNat
    let whole := d.digits.take n ++ zeros (n - d.digits.length)
    let rest := d.digits.drop n
    whole ++ '.' :: (if rest.isEmpty then ['0'] else rest)

/-- Layout with one digit before the point and a signed exponent. -/
def Digits.scientific (d : Digits) : List Char :=
  let rest := d.digits.drop 1
  let exponent := d.point - 1
  let sign := if exponent < 0 then '-' else '+'
  d.digits.take 1 ++ (if rest.isEmpty then [] else '.' :: rest) ++
    'e' :: sign :: Nat.toDigits 10 exponent.natAbs

/-- The written form of a number. -/
def toText (x : Binary64) : String :=
  let sign := if x.negative then ['-'] else []
  let body :=
    if x.units = 0 then ['0', '.', '0']
    else
      let d := shortest x.units
      if -4 ≤ d.point ∧ d.point ≤ 16 then d.positional else d.scientific
  String.ofList (sign ++ body)

end HttpSuite.Binary64
