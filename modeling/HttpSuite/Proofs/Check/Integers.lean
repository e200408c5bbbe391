import HttpSuite.Check.Comparator
import HttpSuite.Proofs.Number.Nearest

/-!
# Comparing integers

Numbers are compared by their binary64 views.  Two integers are therefore compared by what they are
rounded to (`Comparator.apply_int`), and likewise an integer that is looked for in a list of
integers (`Comparator.contains_int`).

So comparators are exact on two integers unless these differ and are rounded alike
(`Comparator.exact_iff_apart`).  They are exact up to `2 ^ 53` in size, and on integers of 64 bits
that are more than 2048 apart.  An order that is claimed strictly is never wrong.
-/

namespace HttpSuite

open Binary64

/-- The integers that a document or a body can hold. -/
def Number.IsWide (i : Int) : Prop := minInt ≤ i ∧ i < 2 ^ 64

instance (i : Int) : Decidable (Number.IsWide i) := inferInstanceAs (Decidable (_ ∧ _))

theorem Number.IsWide.natAbs_lt {i : Int} (h : IsWide i) : i.natAbs < 2 ^ 64 := by
  have hmin : minInt = -2 ^ 63 := rfl
  have hlow := h.1
  have hhigh := h.2
  rw [hmin] at hlow
  omega

namespace Comparator

/-- What a comparator of sizes is to find out about two integers. -/
def onIntegers? : Comparator → Option (Int → Int → Bool)
  | equal => some fun a b => decide (a = b)
  | unequal => some fun a b => decide (a ≠ b)
  | less => some fun a b => decide (a < b)
  | atMost => some fun a b => decide (a ≤ b)
  | greater => some fun a b => decide (b < a)
  | atLeast => some fun a b => decide (b ≤ a)
  | _ => none

/-- All comparators of sizes find out what is true of two integers. -/
def IsExactOn (a b : Int) : Prop :=
  ∀ c test, onIntegers? c = some test → c.apply (.int a) (.int b) = .ok (test a b)

/-- An integer is found in a list of integers if and only if it is there. -/
def IsFoundExactly (xs : List Int) (b : Int) : Prop :=
  contains.apply (.array (xs.map .int)) (.int b) = .ok (decide (b ∈ xs))

variable {a b : Int} {xs : List Int}

/-! ## What comparators see -/

theorem equal_int (a b : Int) :
    (Value.int a).equal (.int b) = decide (nearest a = nearest b) := by
  change ((Number.int a).compare (.int b) == .eq) = _
  rw [Number.compare_int]
  by_cases h : nearest a = nearest b
  · simp [h]
  · simp [h]

theorem order_int (a b : Int) :
    order (.int a) (.int b) = .ok (compare (nearest a) (nearest b)) := by
  change Except.ok ((Number.int a).compare (.int b)) = _
  rw [Number.compare_int]

/-- The tests of an order of integers. -/
theorem compare_tests (x y : Int) :
    (compare x y == .lt) = decide (x < y) ∧ (compare x y != .gt) = decide (x ≤ y) ∧
      (compare x y == .gt) = decide (y < x) ∧ (compare x y != .lt) = decide (y ≤ x) := by
  rcases Int.lt_trichotomy x y with h | rfl | h
  · rw [compare_lt_iff_lt.mpr h, decide_eq_true h, decide_eq_true (Int.le_of_lt h),
      decide_eq_false (Int.lt_asymm h), decide_eq_false (Int.not_le.mpr h)]
    decide
  · rw [compare_eq_iff_eq.mpr rfl, decide_eq_false (Int.lt_irrefl x),
      decide_eq_true (Int.le_refl x)]
    decide
  · rw [compare_gt_iff_gt.mpr h, decide_eq_true h, decide_eq_true (Int.le_of_lt h),
      decide_eq_false (Int.lt_asymm h), decide_eq_false (Int.not_le.mpr h)]
    decide

/-- **Comparators see what integers are rounded to.** -/
theorem apply_int {c : Comparator} {test : Int → Int → Bool} (h : onIntegers? c = some test)
    (a b : Int) : c.apply (.int a) (.int b) = .ok (test (nearest a) (nearest b)) := by
  have hequal := equal_int a b
  have horder := order_int a b
  obtain ⟨hless, hatMost, hgreater, hatLeast⟩ := compare_tests (nearest a) (nearest b)
  cases c with
  | equal =>
    cases h
    exact congrArg Except.ok hequal
  | unequal =>
    cases h
    rw [apply, hequal]
    exact congrArg Except.ok decide_not.symm
  | less =>
    cases h
    rw [apply, horder]
    exact congrArg Except.ok hless
  | atMost =>
    cases h
    rw [apply, horder]
    exact congrArg Except.ok hatMost
  | greater =>
    cases h
    rw [apply, horder]
    exact congrArg Except.ok hgreater
  | atLeast =>
    cases h
    rw [apply, horder]
    exact congrArg Except.ok hatLeast
  | contains | containedBy | count | pattern | typeName | sameText => cases h

theorem contains_int (xs : List Int) (b : Int) :
    contains.apply (.array (xs.map .int)) (.int b) =
      .ok (decide (∃ x ∈ xs, nearest x = nearest b)) := by
  have hany : ((xs.map Value.int).any fun v => v.equal (.int b)) =
      decide (∃ x ∈ xs, nearest x = nearest b) := by
    simp [equal_int, List.any_eq]
  exact congrArg Except.ok hany

/-! ## When that is exact -/

/-- A test of sizes cannot tell integers from other ones in the same order. -/
theorem test_eq_of_order {c : Comparator} {test : Int → Int → Bool}
    (h : onIntegers? c = some test) {x y : Int} (hxy : x < y ↔ a < b) (hyx : y < x ↔ b < a) :
    test x y = test a b := by
  have heq : x = y ↔ a = b := by omega
  have hle : x ≤ y ↔ a ≤ b := by omega
  have hge : y ≤ x ↔ b ≤ a := by omega
  cases c with
  | equal | unequal | less | atMost | greater | atLeast =>
    cases h
    simp [heq, hxy, hyx, hle, hge]
  | contains | containedBy | count | pattern | typeName | sameText => cases h

/-- Integers that are not rounded alike are rounded in their order. -/
theorem nearest_lt_iff (h : nearest a = nearest b → a = b) : nearest a < nearest b ↔ a < b := by
  constructor
  · intro hlt
    by_contra hnot
    have hle := nearest_mono (Int.not_lt.mp hnot)
    omega
  · intro hlt
    have hle := nearest_mono (Int.le_of_lt hlt)
    have hne : nearest a ≠ nearest b := fun heq => Int.ne_of_lt hlt (h heq)
    omega

/-- **Comparators are exact on integers that are not rounded alike**, and on equal ones. -/
theorem isExactOn_iff : IsExactOn a b ↔ (nearest a = nearest b → a = b) := by
  constructor
  · intro h heq
    have hequal := h equal _ rfl
    rw [apply_int (c := equal) rfl, decide_eq_true heq] at hequal
    exact of_decide_eq_true (Except.ok.inj hequal).symm
  · intro h c test hc
    have hsymm : nearest b = nearest a → b = a := fun heq => (h heq.symm).symm
    rw [apply_int hc, test_eq_of_order hc (nearest_lt_iff h) (nearest_lt_iff hsymm)]

theorem isFoundExactly_iff :
    IsFoundExactly xs b ↔ ((∃ x ∈ xs, nearest x = nearest b) → b ∈ xs) := by
  unfold IsFoundExactly
  rw [contains_int]
  constructor
  · intro h hfound
    rw [decide_eq_true hfound] at h
    exact of_decide_eq_true (Except.ok.inj h).symm
  · intro h
    have hiff : (∃ x ∈ xs, nearest x = nearest b) ↔ b ∈ xs := ⟨h, fun hb => ⟨b, hb, rfl⟩⟩
    rw [decide_eq_decide.mpr hiff]

theorem isFoundExactly_of_isExactOn (h : ∀ x ∈ xs, IsExactOn x b) : IsFoundExactly xs b := by
  refine isFoundExactly_iff.mpr ?_
  rintro ⟨x, hx, heq⟩
  rw [← isExactOn_iff.mp (h x hx) heq]
  exact hx

theorem isExactOn_of_le (ha : a.natAbs ≤ 2 ^ 53) (hb : b.natAbs ≤ 2 ^ 53) : IsExactOn a b := by
  refine isExactOn_iff.mpr fun heq => ?_
  rwa [nearest_of_le ha, nearest_of_le hb] at heq

theorem isExactOn_of_distant (ha : Number.IsWide a) (hb : Number.IsWide b)
    (h : 2048 < (a - b).natAbs) : IsExactOn a b := by
  refine isExactOn_iff.mpr fun heq => ?_
  have hclose := natAbs_sub_le_of_nearest_eq ha.natAbs_lt hb.natAbs_lt heq
  omega

/-- **When comparators are exact on integers.**  They answer as for the closest integers of 53 bits.
So they are exact on two integers if and only if these are equal or not rounded alike, and an
integer is found in a list exactly unless one in the list is rounded alike and it is not there
itself.  That cannot happen up to `2 ^ 53` in size, nor to integers of 64 bits that are more than
2048 apart, and a strict order is never claimed the wrong way. -/
theorem exact_iff_apart (a b : Int) (xs : List Int) :
    (∀ c test, onIntegers? c = some test →
      c.apply (.int a) (.int b) = .ok (test (nearest a) (nearest b))) ∧
    (HasBits (nearest a).natAbs ∧
      ∀ r : Int, HasBits r.natAbs → (nearest a - a).natAbs ≤ (r - a).natAbs) ∧
    (IsExactOn a b ↔ (nearest a = nearest b → a = b)) ∧
    (IsFoundExactly xs b ↔ ((∃ x ∈ xs, nearest x = nearest b) → b ∈ xs)) ∧
    ((∀ x ∈ xs, IsExactOn x b) → IsFoundExactly xs b) ∧
    (a.natAbs ≤ 2 ^ 53 → b.natAbs ≤ 2 ^ 53 → IsExactOn a b) ∧
    (Number.IsWide a → Number.IsWide b → 2048 < (a - b).natAbs → IsExactOn a b) ∧
    (less.apply (.int a) (.int b) = .ok true → a < b) := by
  refine ⟨fun _ _ hc => apply_int hc a b, ⟨hasBits_nearest a, fun _ => nearest_closest⟩,
    isExactOn_iff, isFoundExactly_iff, isFoundExactly_of_isExactOn, isExactOn_of_le,
    isExactOn_of_distant, fun h => ?_⟩
  rw [apply_int (c := less) rfl] at h
  have hlt : nearest a < nearest b := of_decide_eq_true (Except.ok.inj h)
  by_contra hnot
  have hle := nearest_mono (Int.not_lt.mp hnot)
  omega

/-- The largest integers with and without a sign, and neighbours up to `2 ^ 53`. -/
theorem exact_at_limits :
    IsExactOn (2 ^ 63 - 1) (2 ^ 64 - 1) ∧ IsExactOn (2 ^ 53 - 1) (2 ^ 53) ∧
      IsFoundExactly [2 ^ 64 - 1, -2 ^ 63] (2 ^ 63 - 1) := by
  have hmax : Number.IsWide (2 ^ 64 - 1) := by decide
  have hmin : Number.IsWide (-2 ^ 63) := by decide
  have hsigned : Number.IsWide (2 ^ 63 - 1) := by decide
  have happart : 2048 < ((2 ^ 63 - 1 : Int) - (2 ^ 64 - 1)).natAbs := by decide
  obtain ⟨-, -, -, -, -, -, hdistant, -⟩ := exact_iff_apart (2 ^ 63 - 1) (2 ^ 64 - 1) []
  obtain ⟨-, -, -, -, -, hsmall, -, -⟩ := exact_iff_apart (2 ^ 53 - 1) (2 ^ 53) []
  have hlist : ∀ x ∈ [(2 ^ 64 - 1 : Int), -2 ^ 63], IsExactOn x (2 ^ 63 - 1) := by
    intro x hx
    simp only [List.mem_cons, List.not_mem_nil, or_false] at hx
    rcases hx with rfl | rfl
    · exact isExactOn_of_distant hmax hsigned (by decide)
    · exact isExactOn_of_distant hmin hsigned (by decide)
  obtain ⟨-, -, -, -, hfound, -, -, -⟩ :=
    exact_iff_apart 0 (2 ^ 63 - 1) [2 ^ 64 - 1, -2 ^ 63]
  exact ⟨hdistant hsigned hmax happart, hsmall (by decide) (by decide), hfound hlist⟩

/-- Two identifiers that follow one another and are one for every comparator. -/
theorem neighbours_not_exact :
    Number.IsWide (2 ^ 53) ∧ Number.IsWide (2 ^ 53 + 1) ∧
      equal.apply (.int (2 ^ 53)) (.int (2 ^ 53 + 1)) = .ok true ∧
      ¬ IsExactOn (2 ^ 53) (2 ^ 53 + 1) ∧ ¬ IsFoundExactly [2 ^ 53] (2 ^ 53 + 1) := by
  have hrounded : nearest (2 ^ 53) = nearest (2 ^ 53 + 1) := by decide +kernel
  have hne : (2 ^ 53 : Int) ≠ 2 ^ 53 + 1 := by decide
  have hequal := apply_int (c := equal) rfl (2 ^ 53) (2 ^ 53 + 1)
  rw [decide_eq_true hrounded] at hequal
  refine ⟨by decide, by decide, hequal, fun h => hne (isExactOn_iff.mp h hrounded), fun h => ?_⟩
  have hmem := isFoundExactly_iff.mp h ⟨2 ^ 53, List.mem_singleton_self _, hrounded⟩
  exact hne (List.mem_singleton.mp hmem).symm

end Comparator

end HttpSuite
