import HttpSuite.Check.Validator
import HttpSuite.Proofs.Template.Substitution
import HttpSuite.Proofs.Value.Equality

/-!
# The order of values

Two numbers have an order, that of their binary64 views, and so have two strings.  No other two
values have one (`Value.Ordered`).

The four comparators of an order ask for the same `Ordering` and differ in which ones they accept
(`Comparator.apply_of_mem_orderings`).  So they give a verdict on the same values, and the verdicts
agree with each other and with equality, because both `Number.compare` and the order of strings are
total orders.  Where there is no order all four fail with the same error, and a validator reports
that as an exception (`Comparator.orderings_coherent`).
-/

namespace HttpSuite

/-- The order of numbers is that of integers. -/
instance : Std.TransCmp Number.compare :=
  inferInstanceAs (Std.TransCmp (compareOn fun n : Number => n.toBinary64.toInt))

/-- Values that have an order. -/
inductive Value.Ordered : Value → Value → Prop where
  | numbers (m n : Number) : Ordered (.number m) (.number n)
  | strings (s t : String) : Ordered (.string s) (.string t)

theorem Value.Ordered.symm {a b : Value} (h : Ordered a b) : Ordered b a := by
  cases h with
  | numbers m n => exact .numbers n m
  | strings s t => exact .strings t s

namespace Comparator

open Value (Ordered)

/-- The comparators that ask for an order. -/
def orderings : List Comparator := [less, atMost, greater, atLeast]

/-- The comparator that holds for one order only. -/
def ofOrdering : Ordering → Comparator
  | .lt => less
  | .eq => equal
  | .gt => greater

/-- The comparator gives a verdict, and it is yes. -/
def Holds (c : Comparator) (a b : Value) : Prop := c.apply a b = .ok true

/-- The orders that a comparator accepts, if it asks for one. -/
def accepts : Comparator → Ordering → Bool
  | less, o => o == .lt
  | atMost, o => o != .gt
  | greater, o => o == .gt
  | atLeast, o => o != .lt
  | _, _ => false

variable {a b d : Value} {c : Comparator} {o p : Ordering}

/-! ## The order that is asked for -/

theorem apply_of_mem_orderings (h : c ∈ orderings) (a b : Value) :
    c.apply a b = (order a b).map c.accepts := by
  simp only [orderings, List.mem_cons, List.not_mem_nil, or_false] at h
  rcases h with rfl | rfl | rfl | rfl <;> rfl

theorem holds_iff (h : c ∈ orderings) :
    c.Holds a b ↔ ∃ o, order a b = .ok o ∧ c.accepts o = true := by
  rw [Holds, apply_of_mem_orderings h]
  cases order a b with
  | ok o => simp [Except.map]
  | error e => simp [Except.map]

theorem exists_order (h : Ordered a b) : ∃ o, order a b = .ok o := by
  cases h with
  | numbers m n => exact ⟨_, rfl⟩
  | strings s t => exact ⟨_, rfl⟩

theorem order_eq_error (h : ¬ Ordered a b) : order a b = .error (.noOrder a b) := by
  unfold order
  split
  · exact absurd (.numbers _ _) h
  · exact absurd (.strings _ _) h
  · rfl

theorem ordered_of_order (h : order a b = .ok o) : Ordered a b := by
  by_contra hnot
  rw [order_eq_error hnot] at h
  cases h

/-- **Verdicts are given exactly on values that have an order.** -/
theorem exists_verdict_iff (hc : c ∈ orderings) :
    (∃ verdict, c.apply a b = .ok verdict) ↔ Ordered a b := by
  rw [apply_of_mem_orderings hc]
  constructor
  · rintro ⟨verdict, h⟩
    cases ho : order a b with
    | ok o => exact ordered_of_order ho
    | error e =>
      rw [ho] at h
      cases h
  · intro h
    obtain ⟨o, ho⟩ := exists_order h
    exact ⟨c.accepts o, by rw [ho]; rfl⟩

theorem apply_eq_error (hc : c ∈ orderings) (h : ¬ Ordered a b) :
    c.apply a b = .error (.noOrder a b) := by
  rw [apply_of_mem_orderings hc, order_eq_error h]
  rfl

/-! ## It is a total order -/

theorem order_swap (h : order a b = .ok o) : order b a = .ok o.swap := by
  cases ordered_of_order h with
  | numbers m n =>
    cases h
    exact congrArg Except.ok Std.OrientedCmp.eq_swap
  | strings s t =>
    cases h
    exact congrArg Except.ok Std.OrientedCmp.eq_swap

theorem order_trans (hab : order a b = .ok o) (hbd : order b d = .ok p) (ho : o.isLE = true)
    (hp : p.isLE = true) : ∃ q, order a d = .ok q ∧ q.isLE = true := by
  cases ordered_of_order hab with
  | numbers m n =>
    cases ordered_of_order hbd with
    | numbers _ k =>
      cases hab
      cases hbd
      exact ⟨m.compare k, rfl, Std.TransCmp.isLE_trans ho hp⟩
  | strings s t =>
    cases ordered_of_order hbd with
    | strings _ u =>
      cases hab
      cases hbd
      exact ⟨compare s u, rfl, Std.TransCmp.isLE_trans ho hp⟩

theorem holds_equal_iff (h : Ordered a b) : equal.Holds a b ↔ order a b = .ok .eq := by
  cases h with
  | numbers m n =>
    change Except.ok (m.compare n == .eq) = _ ↔ Except.ok (m.compare n) = _
    rw [Except.ok.injEq, Except.ok.injEq, beq_iff_eq]
  | strings s t =>
    change Except.ok (s == t) = _ ↔ Except.ok (compare s t) = _
    rw [Except.ok.injEq, Except.ok.injEq, beq_iff_eq, Std.LawfulEqCmp.compare_eq_iff_eq]

theorem holds_ofOrdering_iff (h : Ordered a b) : (ofOrdering o).Holds a b ↔ order a b = .ok o := by
  cases o with
  | eq => exact holds_equal_iff h
  | lt =>
    rw [ofOrdering, holds_iff (by decide)]
    simp [accepts]
  | gt =>
    rw [ofOrdering, holds_iff (by decide)]
    simp [accepts]

/-- **Exactly one of less, equal and greater.** -/
theorem existsUnique_ofOrdering (h : Ordered a b) : ∃! o, (ofOrdering o).Holds a b := by
  obtain ⟨o, ho⟩ := exists_order h
  refine ⟨o, (holds_ofOrdering_iff h).mpr ho, fun p hp => ?_⟩
  exact Except.ok.inj (((holds_ofOrdering_iff h).mp hp).symm.trans ho)

theorem holds_atMost_iff : atMost.Holds a b ↔ ∃ o, order a b = .ok o ∧ o.isLE = true := by
  rw [holds_iff (by decide)]
  exact exists_congr fun o => and_congr_right fun _ => by cases o <;> decide

/-- At most is less or equal. -/
theorem holds_atMost_iff_or (h : Ordered a b) :
    atMost.Holds a b ↔ less.Holds a b ∨ equal.Holds a b := by
  obtain ⟨o, ho⟩ := exists_order h
  have hless := holds_ofOrdering_iff (o := .lt) h
  rw [ofOrdering] at hless
  rw [holds_atMost_iff, hless, holds_equal_iff h, ho]
  cases o <;> simp

/-- Comparators that accept opposite orders hold the opposite way. -/
theorem holds_iff_swap {e : Comparator} (hc : c ∈ orderings) (he : e ∈ orderings)
    (h : ∀ o : Ordering, e.accepts o.swap = c.accepts o) : c.Holds a b ↔ e.Holds b a := by
  rw [holds_iff hc, holds_iff he]
  constructor
  · rintro ⟨o, ho, haccepts⟩
    exact ⟨o.swap, order_swap ho, (h o).trans haccepts⟩
  · rintro ⟨o, ho, haccepts⟩
    refine ⟨o.swap, order_swap ho, ?_⟩
    rw [← h, Ordering.swap_swap]
    exact haccepts

theorem holds_less_iff : less.Holds a b ↔ greater.Holds b a :=
  holds_iff_swap (by decide) (by decide) fun o => by cases o <;> rfl

theorem holds_atLeast_iff : atLeast.Holds a b ↔ atMost.Holds b a :=
  holds_iff_swap (by decide) (by decide) fun o => by cases o <;> rfl

theorem holds_equal_symm (h : Ordered a b) : equal.Holds a b ↔ equal.Holds b a := by
  rw [holds_equal_iff h, holds_equal_iff h.symm]
  exact ⟨order_swap, order_swap⟩

theorem holds_atMost_trans (hab : atMost.Holds a b) (hbd : atMost.Holds b d) :
    atMost.Holds a d := by
  obtain ⟨o, ho, hle⟩ := holds_atMost_iff.mp hab
  obtain ⟨p, hp, hle'⟩ := holds_atMost_iff.mp hbd
  exact holds_atMost_iff.mpr (order_trans ho hp hle hle')

/-- At least is greater or equal. -/
theorem holds_atLeast_iff_or (h : Ordered a b) :
    atLeast.Holds a b ↔ greater.Holds a b ∨ equal.Holds a b := by
  rw [holds_atLeast_iff, holds_atMost_iff_or h.symm, holds_less_iff, holds_equal_symm h]

/-! ## What a validator makes of it -/

/-- A comparator without a verdict makes the validator raise an exception. -/
theorem validate_of_apply_eq_error {x : Extractor} {expected : Expected} {body : List UInt8}
    {headers : Headers} {context : Context} {e : ComparisonError}
    (ha : (Validator.comparison x c expected).extract x body headers context = .ok a)
    (hb : (Validator.comparison x c expected).expectedValue expected body headers context = .ok b)
    (happly : c.apply a b = .error e) :
    (Validator.comparison x c expected).validate body headers context =
      .error ((Validator.comparison x c expected).fail .validatorException
        ("Comparator '" ++ c.name ++ "' raised an error") (some e.message)) := by
  simp only [Validator.validate, ha, hb, bind, Except.bind, happly]
  rfl

/-- **The comparators of an order are coherent.**  They give a verdict if and only if both values
are numbers or both are strings.  Then exactly one of less, equal and greater holds, at most is less
or equal, at least is greater or equal, and less is greater the other way; at most is transitive.
On other values they fail in both directions, and a validator that is to compare such values raises
an exception. -/
theorem orderings_coherent (a b : Value) :
    (∀ c ∈ orderings, (∃ verdict, c.apply a b = .ok verdict) ↔ Ordered a b) ∧
    (Ordered a b → (∃! o, (ofOrdering o).Holds a b) ∧
      (atMost.Holds a b ↔ less.Holds a b ∨ equal.Holds a b) ∧
      (atLeast.Holds a b ↔ greater.Holds a b ∨ equal.Holds a b) ∧
      (less.Holds a b ↔ greater.Holds b a) ∧
      ∀ d, atMost.Holds a b → atMost.Holds b d → atMost.Holds a d) ∧
    (¬ Ordered a b → ∀ c ∈ orderings,
      c.apply a b = .error (.noOrder a b) ∧ c.apply b a = .error (.noOrder b a) ∧
      ∀ x expected body headers context actual wanted,
        (actual = a ∧ wanted = b ∨ actual = b ∧ wanted = a) →
        (Validator.comparison x c expected).extract x body headers context = .ok actual →
        (Validator.comparison x c expected).expectedValue expected body headers context =
          .ok wanted →
        (Validator.comparison x c expected).validate body headers context =
          .error ((Validator.comparison x c expected).fail .validatorException
            ("Comparator '" ++ c.name ++ "' raised an error")
            (some (ComparisonError.noOrder actual wanted).message))) := by
  refine ⟨fun c hc => exists_verdict_iff hc, fun h => ⟨existsUnique_ofOrdering h,
    holds_atMost_iff_or h, holds_atLeast_iff_or h, holds_less_iff,
    fun d => holds_atMost_trans⟩, fun h c hc => ?_⟩
  have hsymm : ¬ Ordered b a := fun hba => h hba.symm
  refine ⟨apply_eq_error hc h, apply_eq_error hc hsymm, ?_⟩
  rintro x expected body headers context actual wanted hvalues hactual hwanted
  rcases hvalues with ⟨rfl, rfl⟩ | ⟨rfl, rfl⟩
  · exact validate_of_apply_eq_error hactual hwanted (apply_eq_error hc h)
  · exact validate_of_apply_eq_error hactual hwanted (apply_eq_error hc hsymm)

/-- An integer and a float between others, and a string that is compared with a number. -/
theorem orderings_coherent_mixed :
    let two : Value := .float ⟨false, 2 * Binary64.one⟩
    let v : Validator := .comparison (.constant (.string "1")) less (.literal two)
    (∃! o, (ofOrdering o).Holds (.int 1) two) ∧ atMost.Holds (.int 1) (.int 3) ∧
      ¬ Ordered (.string "1") two ∧
      (∀ c ∈ orderings, c.apply two (.string "1") = .error (.noOrder two (.string "1"))) ∧
      ∃ f, v.validate [] [] (.empty []) = .error f ∧ f.kind = .validatorException := by
  intro two v
  have hbelow : atMost.Holds (.int 1) two :=
    congrArg Except.ok (by decide +kernel : (Number.compare (.int 1) (.float _) != .gt) = true)
  have habove : atMost.Holds two (.int 3) :=
    congrArg Except.ok (by decide +kernel : (Number.compare (.float _) (.int 3) != .gt) = true)
  have hnot : ¬ Ordered (.string "1") (.number (.float ⟨false, 2 * Binary64.one⟩)) := nofun
  obtain ⟨-, hordered, -⟩ := orderings_coherent (.int 1) two
  obtain ⟨hunique, -, -, -, htrans⟩ := hordered (.numbers _ _)
  obtain ⟨-, -, hfails⟩ := orderings_coherent (.string "1") two
  obtain ⟨-, -, hraises⟩ := hfails hnot less (by decide)
  have hnames : Template.names (.string "1") = [] := by decide +kernel
  have hactual : v.extract (.constant (.string "1")) [] [] (.empty []) = .ok (.string "1") := by
    rw [Validator.extract, Extractor.extract, Context.resolveBound_of_names _ hnames]
    rfl
  exact ⟨hunique, htrans (.int 3) hbelow habove, hnot, fun c hc => (hfails hnot c hc).2.1,
    _, hraises _ _ _ _ _ _ _ (.inl ⟨rfl, rfl⟩) hactual rfl, rfl⟩

end Comparator

end HttpSuite
