import HttpSuite.Value
import Mathlib.Order.Monotone.Basic
import Mathlib.Tactic.Ring

/-!
# The binary64 number nearest to an integer

A binary64 number has 53 significant bits.  So between two powers of two the numbers have a fixed
distance, the `Binary64.spacing`, and an integer is rounded to a multiple of it.  The result is an
integer again, `Binary64.nearest`, and comparing two integers as numbers is comparing what they are
rounded to (`Number.compare_int`).

## What is lost

What an integer is rounded to has 53 bits, and no other integer of 53 bits is closer to it
(`Binary64.nearest_closest`).  Rounding keeps the order (`Binary64.nearest_mono`) and every integer
up to `2 ^ 53` in size (`Binary64.nearest_of_le`).  Beyond `2 ^ 53` it is not injective.  It moves
an integer by at most half the spacing, so integers that are rounded alike are at most one spacing
apart, which is 2048 below `2 ^ 64` (`Binary64.natAbs_sub_le_of_nearest_eq`).

## The argument

All of this is about `roundDiv` and the shift.  Rounding a quotient is monotone, because what is
rounded to more would have to be closer to less (`roundDiv_mono`), and it is exact where the
quotient is (`roundDiv_of_dvd`).  Two integers under the same power of two have the same shift.
Otherwise the power of two between them separates the results, since it is a multiple of both
spacings.
-/

namespace HttpSuite

/-! ## Rounded quotients -/

variable {num num' den : Nat}

/-- A rounded quotient is the whole one or one more. -/
theorem roundDiv_bounds (num den : Nat) :
    num / den ≤ roundDiv num den ∧ roundDiv num den ≤ num / den + 1 := by
  unfold roundDiv
  dsimp only
  split
  · exact ⟨Nat.le_refl _, Nat.le_succ _⟩
  · exact ⟨Nat.le_succ _, Nat.le_refl _⟩

/-- A rounded quotient is at most half a unit away from the quotient. -/
theorem roundDiv_error (num : Nat) (hden : 0 < den) :
    2 * (den * roundDiv num den) ≤ 2 * num + den ∧
      2 * num ≤ 2 * (den * roundDiv num den) + den := by
  have hsplit := Nat.div_add_mod num den
  have hmod := Nat.mod_lt num hden
  unfold roundDiv
  dsimp only
  split
  · omega
  · rw [Nat.mul_succ]
    omega

/-- No other multiple is closer. -/
theorem roundDiv_closest (num : Nat) (hden : 0 < den) (k : Nat) :
    ((den * roundDiv num den : Nat) - num : Int).natAbs ≤ ((den * k : Nat) - num : Int).natAbs := by
  have herror := roundDiv_error num hden
  generalize roundDiv num den = q at herror ⊢
  rcases Nat.lt_trichotomy k q with hlt | rfl | hgt
  · have hmul := Nat.mul_le_mul_left den (Nat.succ_le_of_lt hlt)
    rw [Nat.mul_succ] at hmul
    omega
  · exact Nat.le_refl _
  · have hmul := Nat.mul_le_mul_left den (Nat.succ_le_of_lt hgt)
    rw [Nat.mul_succ] at hmul
    omega

/-- **Rounding keeps the order.**  If the smaller quotient were rounded to more, both would lie
halfway between two numbers, so that they would be equal. -/
theorem roundDiv_mono (hden : 0 < den) (h : num ≤ num') :
    roundDiv num den ≤ roundDiv num' den := by
  by_contra hnot
  have hstep : roundDiv num' den + 1 ≤ roundDiv num den := Nat.lt_of_not_le hnot
  have hmul := Nat.mul_le_mul_left den hstep
  rw [Nat.mul_succ] at hmul
  have hbelow := (roundDiv_error num hden).1
  have habove := (roundDiv_error num' hden).2
  have heq : num = num' := by omega
  rw [heq] at hnot
  exact hnot (Nat.le_refl _)

/-- A quotient that is whole is not rounded. -/
theorem roundDiv_of_dvd (h : den ∣ num) : roundDiv num den = num / den := by
  rcases Nat.eq_zero_or_pos den with rfl | hden
  · rw [Nat.zero_dvd.mp h]
    rfl
  · have hmod := Nat.mod_eq_zero_of_dvd h
    unfold roundDiv
    rw [hmod]
    exact if_pos (.inl hden)

theorem roundDiv_mul_of_dvd (h : den ∣ num) : roundDiv num den * den = num := by
  rw [roundDiv_of_dvd h, Nat.div_mul_cancel h]

/-- A common factor does not matter. -/
theorem roundDiv_mul_right (num den : Nat) {c : Nat} (hc : 0 < c) :
    roundDiv (num * c) (den * c) = roundDiv num den := by
  have htwice : 2 * (num % den * c) = 2 * (num % den) * c := (Nat.mul_assoc ..).symm
  unfold roundDiv
  simp only [Nat.mul_div_mul_right _ _ hc, Nat.mul_mod_mul_right, htwice,
    Nat.mul_lt_mul_right hc, Nat.mul_right_cancel_iff hc]

namespace Binary64

/-! ## Rounding to 53 significant bits -/

/-- The distance between the numbers around a natural number. -/
def spacing (n : Nat) : Nat := 2 ^ (n.log2 - 52)

/-- A natural number rounded to 53 significant bits, a tie to the even one. -/
def nearestNat (n : Nat) : Nat := roundDiv n (spacing n) * spacing n

variable {m n : Nat}

theorem spacing_pos (n : Nat) : 0 < spacing n := Nat.two_pow_pos _

theorem roundUnits_one (n : Nat) : roundUnits n 1 = nearestNat n := by
  unfold roundUnits
  dsimp only
  rw [Nat.div_one, Nat.one_mul]
  rfl

theorem log2_mul_two_pow (hn : n ≠ 0) (k : Nat) : (n * 2 ^ k).log2 = n.log2 + k := by
  have hne : n * 2 ^ k ≠ 0 := Nat.mul_ne_zero hn (Nat.two_pow_pos k).ne'
  refine (Nat.log2_eq_iff hne).mpr ⟨?_, ?_⟩
  · rw [Nat.pow_add]
    exact Nat.mul_le_mul_right _ (Nat.log2_self_le hn)
  · rw [Nat.add_right_comm, Nat.pow_add]
    exact Nat.mul_lt_mul_of_pos_right Nat.lt_log2_self (Nat.two_pow_pos k)

/-- Numbers that a power of two divides often enough are kept. -/
theorem nearestNat_of_dvd (h : spacing n ∣ n) : nearestNat n = n := roundDiv_mul_of_dvd h

/-- **Numbers up to `2 ^ 53` are kept.** -/
theorem nearestNat_of_le (h : n ≤ 2 ^ 53) : nearestNat n = n := by
  refine nearestNat_of_dvd ?_
  rcases Nat.lt_or_eq_of_le h with hlt | rfl
  · have hzero : n.log2 - 52 = 0 := by
      by_cases hn : n = 0
      · subst hn
        rfl
      · have hlog := (Nat.log2_lt hn).mpr hlt
        omega
    rw [spacing, hzero]
    exact Nat.one_dvd _
  · rw [spacing, Nat.log2_two_pow]
    exact Nat.pow_dvd_pow 2 (by decide)

/-- Rounding does not depend on the unit, if the unit is a power of two. -/
theorem nearestNat_mul_two_pow (n k : Nat) : nearestNat (n * 2 ^ k) = nearestNat n * 2 ^ k := by
  by_cases hn : n = 0
  · subst hn
    rw [Nat.zero_mul, nearestNat_of_le (Nat.zero_le _), Nat.zero_mul]
  have hlog := log2_mul_two_pow hn k
  by_cases hlarge : 52 ≤ n.log2
  · have hspacing : spacing (n * 2 ^ k) = spacing n * 2 ^ k := by
      rw [spacing, spacing, hlog, ← Nat.pow_add]
      congr 1
      omega
    rw [nearestNat, nearestNat, hspacing, roundDiv_mul_right _ _ (Nat.two_pow_pos k),
      Nat.mul_assoc]
  · -- so few bits are kept, and the factor takes up the whole shift
    have hsmall : n ≤ 2 ^ 53 := by
      have hlt : n < 2 ^ 52 := (Nat.log2_lt hn).mp (Nat.lt_of_not_le hlarge)
      exact Nat.le_of_lt (Nat.lt_of_lt_of_le hlt (Nat.pow_le_pow_right Nat.two_pos (by decide)))
    have hdvd : spacing (n * 2 ^ k) ∣ n * 2 ^ k := by
      rw [spacing, hlog]
      exact Dvd.dvd.mul_left (Nat.pow_dvd_pow 2 (by omega)) n
    rw [nearestNat_of_dvd hdvd, nearestNat_of_le hsmall]

/-- A number is moved by at most half the spacing. -/
theorem nearestNat_error (n : Nat) :
    2 * nearestNat n ≤ 2 * n + spacing n ∧ 2 * n ≤ 2 * nearestNat n + spacing n := by
  have herror := roundDiv_error n (spacing_pos n)
  rwa [Nat.mul_comm (spacing n)] at herror

/-- Some power of two times a number of 53 bits. -/
def HasBits (n : Nat) : Prop := ∃ m k, m < 2 ^ 53 ∧ n = m * 2 ^ k

theorem hasBits_nearestNat (n : Nat) : HasBits (nearestNat n) := by
  have hbelow : n ≤ 2 ^ 53 * spacing n := by
    refine Nat.le_of_lt (Nat.lt_of_lt_of_le Nat.lt_log2_self ?_)
    rw [spacing, ← Nat.pow_add]
    exact Nat.pow_le_pow_right Nat.two_pos (by omega)
  have hle := roundDiv_mono (spacing_pos n) hbelow
  rw [roundDiv_of_dvd (Nat.dvd_mul_left ..), Nat.mul_div_cancel _ (spacing_pos n)] at hle
  rcases Nat.lt_or_eq_of_le hle with hlt | heq
  · exact ⟨_, _, hlt, rfl⟩
  · -- the carry into the next power of two
    refine ⟨1, 53 + (n.log2 - 52), by decide, ?_⟩
    rw [nearestNat, heq, spacing, Nat.one_mul, Nat.pow_add]

/-- From the power of two below a number on, the numbers of 53 bits are multiples of its spacing. -/
theorem spacing_dvd_of_le {r : Nat} (hr : HasBits r) (h : 2 ^ n.log2 ≤ r) : spacing n ∣ r := by
  obtain ⟨m, k, hm, rfl⟩ := hr
  have hlt : 2 ^ n.log2 < 2 ^ (53 + k) := by
    rw [Nat.pow_add]
    exact Nat.lt_of_le_of_lt h (Nat.mul_lt_mul_of_pos_right hm (Nat.two_pow_pos k))
  have hlog : n.log2 < 53 + k := (Nat.pow_lt_pow_iff_right Nat.one_lt_two).mp hlt
  exact Dvd.dvd.mul_left (Nat.pow_dvd_pow 2 (by omega)) m

/-- **No number of 53 bits is closer.** -/
theorem nearestNat_closest {r : Nat} (hr : HasBits r) :
    ((nearestNat n : Int) - n).natAbs ≤ ((r : Int) - n).natAbs := by
  have hclosest : ∀ s, spacing n ∣ s →
      ((nearestNat n : Int) - n).natAbs ≤ ((s : Int) - n).natAbs := by
    rintro s ⟨k, rfl⟩
    rw [nearestNat, Nat.mul_comm]
    exact roundDiv_closest n (spacing_pos n) k
  by_cases hle : 2 ^ n.log2 ≤ r
  · exact hclosest r (spacing_dvd_of_le hr hle)
  · -- the power of two lies between, and it is a multiple of the spacing
    by_cases hn : n = 0
    · subst hn
      rw [nearestNat_of_le (Nat.zero_le _)]
      exact Nat.zero_le _
    have hpower := hclosest (2 ^ n.log2) (Nat.pow_dvd_pow 2 (Nat.sub_le ..))
    have hself := Nat.log2_self_le hn
    omega

/-- What is rounded stays between multiples of its spacing. -/
theorem nearestNat_le_of_dvd (h : n ≤ m) (hdvd : spacing n ∣ m) : nearestNat n ≤ m := by
  have hmono := Nat.mul_le_mul_right (spacing n) (roundDiv_mono (spacing_pos n) h)
  rwa [roundDiv_mul_of_dvd hdvd] at hmono

theorem le_nearestNat_of_dvd (h : m ≤ n) (hdvd : spacing n ∣ m) : m ≤ nearestNat n := by
  have hmono := Nat.mul_le_mul_right (spacing n) (roundDiv_mono (spacing_pos n) h)
  rwa [roundDiv_mul_of_dvd hdvd] at hmono

theorem nearestNat_mono (h : m ≤ n) : nearestNat m ≤ nearestNat n := by
  rcases Nat.eq_zero_or_pos m with rfl | hm
  · rw [nearestNat_of_le (Nat.zero_le _)]
    exact Nat.zero_le _
  have hmne : m ≠ 0 := hm.ne'
  have hnne : n ≠ 0 := (Nat.lt_of_lt_of_le hm h).ne'
  have hlog : m.log2 ≤ n.log2 :=
    (Nat.le_log2 hnne).mpr (Nat.le_trans (Nat.log2_self_le hmne) h)
  rcases Nat.lt_or_eq_of_le hlog with hlt | heq
  · have hpower : 2 ^ (m.log2 + 1) ≤ 2 ^ n.log2 := Nat.pow_le_pow_right Nat.two_pos hlt
    calc nearestNat m ≤ 2 ^ (m.log2 + 1) :=
          nearestNat_le_of_dvd (Nat.le_of_lt Nat.lt_log2_self) (Nat.pow_dvd_pow 2 (by omega))
      _ ≤ 2 ^ n.log2 := hpower
      _ ≤ nearestNat n :=
          le_nearestNat_of_dvd (Nat.log2_self_le hnne) (Nat.pow_dvd_pow 2 (by omega))
  · rw [nearestNat, nearestNat, spacing, spacing, heq]
    exact Nat.mul_le_mul_right _ (roundDiv_mono (Nat.two_pow_pos _) h)

/-! ## Integers -/

/-- The unit is a power of two. -/
theorem exists_one_eq : ∃ k, one = 2 ^ k := by
  have hpow : ∀ n, ∃ k, Nat.pow 2 n = 2 ^ k := fun n => ⟨n, rfl⟩
  unfold one
  exact hpow 1074

theorem one_pos : 0 < one := by
  obtain ⟨k, hk⟩ := exists_one_eq
  rw [hk]
  exact Nat.two_pow_pos k

/-- The number nearest to an integer, as an integer. -/
def nearest (i : Int) : Int := if i < 0 then -nearestNat i.natAbs else nearestNat i.natAbs

variable {i j : Int}

/-- The number of an integer is the rounded integer. -/
theorem toInt_ofInt (i : Int) : (ofInt i).toInt = nearest i * one := by
  have hunits : roundUnits (i.natAbs * one) 1 = nearestNat i.natAbs * one := by
    obtain ⟨k, hk⟩ := exists_one_eq
    rw [roundUnits_one, hk, nearestNat_mul_two_pow]
  unfold ofInt toInt nearest
  rw [hunits]
  generalize one = unit
  by_cases hi : i < 0
  · simp [hi]
  · simp [hi]

theorem nearest_of_le (h : i.natAbs ≤ 2 ^ 53) : nearest i = i := by
  unfold nearest
  rw [nearestNat_of_le h]
  split
  · omega
  · omega

theorem nearest_mono (h : i ≤ j) : nearest i ≤ nearest j := by
  unfold nearest
  by_cases hj : j < 0
  · have habs : j.natAbs ≤ i.natAbs := by omega
    have hmono := nearestNat_mono habs
    rw [if_pos hj, if_pos (Int.lt_of_le_of_lt h hj)]
    omega
  · by_cases hi : i < 0
    · rw [if_pos hi, if_neg hj]
      omega
    · have habs : i.natAbs ≤ j.natAbs := by omega
      have hmono := nearestNat_mono habs
      rw [if_neg hi, if_neg hj]
      omega

theorem nearest_error (i : Int) : 2 * (nearest i - i).natAbs ≤ spacing i.natAbs := by
  have herror := nearestNat_error i.natAbs
  unfold nearest
  split
  · omega
  · omega

theorem hasBits_nearest (i : Int) : HasBits (nearest i).natAbs := by
  have hbits := hasBits_nearestNat i.natAbs
  unfold nearest
  split
  · rwa [Int.natAbs_neg, Int.natAbs_natCast]
  · rwa [Int.natAbs_natCast]

/-- **No integer of 53 bits is closer.** -/
theorem nearest_closest {r : Int} (hr : HasBits r.natAbs) :
    (nearest i - i).natAbs ≤ (r - i).natAbs := by
  have hzero : HasBits 0 := ⟨0, 0, by decide, rfl⟩
  have hclosest := nearestNat_closest (n := i.natAbs) hr
  have hsize := nearestNat_closest (n := i.natAbs) hzero
  unfold nearest
  split
  · omega
  · omega

/-- Below `2 ^ 64` the numbers are at most 2048 apart. -/
theorem spacing_le (h : n < 2 ^ 64) : spacing n ≤ 2048 := by
  have hlog : n.log2 - 52 ≤ 11 := by
    by_cases hn : n = 0
    · subst hn
      decide
    · have hlt := (Nat.log2_lt hn).mpr h
      omega
  exact Nat.pow_le_pow_right Nat.two_pos hlog

/-- **Integers that are rounded alike are close to each other.** -/
theorem natAbs_sub_le_of_nearest_eq (hi : i.natAbs < 2 ^ 64) (hj : j.natAbs < 2 ^ 64)
    (h : nearest i = nearest j) : (i - j).natAbs ≤ 2048 := by
  have hfirst := nearest_error i
  have hsecond := nearest_error j
  have hleft := spacing_le hi
  have hright := spacing_le hj
  rw [h] at hfirst
  omega

end Binary64

/-- **Integers are compared by what they are rounded to.** -/
theorem Number.compare_int (i j : Int) :
    (Number.int i).compare (.int j) =
      Ord.compare (Binary64.nearest i) (Binary64.nearest j) := by
  have hstrict : StrictMono fun k : Int => k * (Binary64.one : Int) := by
    intro k l hkl
    exact Int.mul_lt_mul_of_pos_right hkl (Int.natCast_pos.mpr Binary64.one_pos)
  change Ord.compare (Binary64.ofInt i).toInt (Binary64.ofInt j).toInt = _
  rw [Binary64.toInt_ofInt, Binary64.toInt_ofInt, ← cmp_eq_compare, ← cmp_eq_compare]
  exact hstrict.cmp_map_eq _ _

end HttpSuite
