/-!
# Decimal numbers in text
-/

namespace HttpSuite.Text

private def digitsValue? (cs : List Char) : Option Nat :=
  if cs.isEmpty || !cs.all Char.isDigit then none
  else some (cs.foldl (fun n c => n * 10 + (c.toNat - 48)) 0)

/-- A number below `limit` in digits, with or without a plus sign. -/
def unsignedBelow? (limit : Nat) (s : String) : Option Nat :=
  let digits := match s.toList with
    | '+' :: r => r
    | cs => cs
  (digitsValue? digits).filter (· < limit)

private theorem digitsValue?_eq_some_iff {cs : List Char} {n : Nat} :
    digitsValue? cs = some n ↔ cs ≠ [] ∧ (∀ c ∈ cs, c.isDigit = true) ∧
      cs.foldl (fun n c => n * 10 + (c.toNat - 48)) 0 = n := by
  unfold digitsValue?
  grind

/-- What is read is digits, with or without a plus sign before them. -/
theorem unsignedBelow?_eq_some_iff {limit n : Nat} {s : String} :
    unsignedBelow? limit s = some n ↔ n < limit ∧ ∃ sign digits, (sign = [] ∨ sign = ['+']) ∧
      s.toList = sign ++ digits ∧ digits ≠ [] ∧ (∀ c ∈ digits, c.isDigit = true) ∧
      digits.foldl (fun n c => n * 10 + (c.toNat - 48)) 0 = n := by
  unfold unsignedBelow?
  simp only [Option.filter_eq_some_iff, digitsValue?_eq_some_iff, decide_eq_true_eq]
  rw [and_comm]
  refine and_congr_right fun _ => ?_
  split
  · rename_i r hs
    rw [hs]
    constructor
    · exact fun h => ⟨['+'], r, .inr rfl, rfl, h⟩
    · rintro ⟨sign, digits, rfl | rfl, heq, hne, hdigits, hvalue⟩
      · -- the plus sign is no digit
        rw [List.nil_append] at heq
        subst heq
        exact absurd (hdigits '+' List.mem_cons_self) (by decide)
      · obtain rfl := (List.cons.inj heq).2
        exact ⟨hne, hdigits, hvalue⟩
  · rename_i hplus
    constructor
    · exact fun h => ⟨[], s.toList, .inl rfl, rfl, h⟩
    · rintro ⟨sign, digits, rfl | rfl, heq, h⟩
      · rw [heq]
        exact h
      · exact absurd heq (hplus digits)

/-- A number of 64 bits in digits, with or without a plus sign. -/
def unsigned? (s : String) : Option Nat := unsignedBelow? (Nat.pow 2 64) s

/-- A number of 64 bits with a sign in digits. -/
def signed? (s : String) : Option Int :=
  match s.toList with
  | '-' :: r => ((digitsValue? r).filter (· ≤ Nat.pow 2 63)).map fun n => -(n : Int)
  | _ => (unsignedBelow? (Nat.pow 2 63) s).map Int.ofNat

/-! ## Numbers with a point or an exponent -/

/-- A decimal number: its sign, its digits as one integer, and the power of ten that scales it. -/
structure DecimalText where
  negative : Bool
  digits : Nat
  exponent : Int

/-- The power of ten after the digits. -/
private def exponent? : List Char → Option Int
  | [] => some 0
  | c :: cs =>
    if c ≠ 'e' ∧ c ≠ 'E' then none
    else match cs with
      | '-' :: r => (digitsValue? r).map fun n => -(n : Int)
      | '+' :: r => (digitsValue? r).map Int.ofNat
      | r => (digitsValue? r).map Int.ofNat

/-- A number with digits on at least one side of the point. -/
def decimal? (s : String) : Option DecimalText := do
  let (negative, cs) := match s.toList with
    | '-' :: r => (true, r)
    | '+' :: r => (false, r)
    | r => (false, r)
  let whole := cs.takeWhile Char.isDigit
  let rest := cs.dropWhile Char.isDigit
  let (fraction, rest) := match rest with
    | '.' :: r => (r.takeWhile Char.isDigit, r.dropWhile Char.isDigit)
    | r => ([], r)
  let digits ← digitsValue? (whole ++ fraction)
  return ⟨negative, digits, (← exponent? rest) - fraction.length⟩

end HttpSuite.Text
