import HttpSuite.Proofs.Actions
import HttpSuite.Proofs.Number.Nearest
import HttpSuite.Suite.Test
import Mathlib.Tactic.Ring

/-!
# Declarations that are calm

A number of seconds is converted to a duration where a configuration sets a timeout, where a test
sets a delay, where an operation is a delay and where settings force a timeout.  Each of these
refuses a number of the wrong sign, and then the conversion fails exactly if the number is `2 ^ 64`
or more (`Duration.fits_iff_lt`).

A declaration is `Calm` if it does not end that way.  Fields, extractors, validators and generators
hold no number of seconds and are calm whatever they hold.
-/

namespace HttpSuite

/-! ## Numbers of seconds -/

namespace Duration

variable {x : Binary64}

/-- If a number is not negative, there is a duration of so many seconds. -/
def Fits (x : Binary64) : Prop := x.negative = false → (ofSeconds? x).isSome

instance : Decidable (Fits x) := inferInstanceAs (Decidable (_ → _))

theorem fits_iff (h : x.negative = false) :
    Fits x ↔ roundDiv (x.units * Nat.pow 10 9) Binary64.one < limit := by
  unfold Fits ofSeconds?
  by_cases hlt : roundDiv (x.units * Nat.pow 10 9) Binary64.one < limit
  · simp [h, hlt]
  · simp [h, hlt]

theorem isSome_of_isZero (h : x.isZero = true) : (ofSeconds? x).isSome := by
  have hunits : x.units = 0 := beq_iff_eq.mp h
  have hlt : roundDiv 0 Binary64.one < limit := by
    rw [roundDiv_of_dvd (Nat.dvd_zero _), Nat.zero_div]
    decide
  simp [ofSeconds?, hunits, hlt]

/-- A number that is zero or not negative, and fits, is converted. -/
theorem isSome_of_fits (hsign : (!x.negative || x.isZero) = true) (h : Fits x) :
    (ofSeconds? x).isSome := by
  rcases Bool.or_eq_true_iff.mp hsign with hnot | hzero
  · exact h (by rwa [Bool.not_eq_true'] at hnot)
  · exact isSome_of_isZero hzero

/-- Below the limit of a duration by a second or more, a number fits. -/
theorem fits_of_units_le (h : x.units ≤ (Nat.pow 2 64 - 1) * Binary64.one) : Fits x := by
  intro hneg
  refine (fits_iff hneg).mpr ?_ hneg
  have hle : x.units * Nat.pow 10 9 / Binary64.one ≤ (Nat.pow 2 64 - 1) * Nat.pow 10 9 := by
    refine Nat.div_le_of_le_mul ?_
    calc x.units * Nat.pow 10 9 ≤ (Nat.pow 2 64 - 1) * Binary64.one * Nat.pow 10 9 :=
          Nat.mul_le_mul_right _ h
      _ = Binary64.one * ((Nat.pow 2 64 - 1) * Nat.pow 10 9) := by ring
  have hround := (roundDiv_bounds (x.units * Nat.pow 10 9) Binary64.one).2
  have hlimit : (Nat.pow 2 64 - 1) * Nat.pow 10 9 + 1 < limit := by decide
  omega

/-- From the limit of a duration on, a number does not fit. -/
theorem not_fits_of_le_units (hneg : x.negative = false)
    (h : Nat.pow 2 64 * Binary64.one ≤ x.units) : ¬ Fits x := by
  rw [fits_iff hneg, Nat.not_lt]
  have hle : limit ≤ x.units * Nat.pow 10 9 / Binary64.one := by
    refine (Nat.le_div_iff_mul_le Binary64.one_pos).mpr ?_
    calc limit * Binary64.one = Nat.pow 2 64 * Binary64.one * Nat.pow 10 9 := by
          rw [limit]
          ring
      _ ≤ x.units * Nat.pow 10 9 := Nat.mul_le_mul_right _ h
  exact Nat.le_trans hle (roundDiv_bounds _ _).1

/-- A number of 53 bits below `2 ^ 64` is below it by more than one. -/
theorem units_le_of_lt (hbits : Binary64.HasBits x.units)
    (h : x.units < Nat.pow 2 64 * Binary64.one) :
    x.units ≤ (Nat.pow 2 64 - 1) * Binary64.one := by
  obtain ⟨k, hk⟩ := Binary64.exists_one_eq
  rw [hk] at h ⊢
  -- from half the bound on, the numbers are multiples of `2 ^ 11`
  by_cases hhalf : 2 ^ (63 + k) ≤ x.units
  · have hlog : (2 ^ (63 + k)).log2 = 63 + k := Nat.log2_two_pow
    have hdvd : 2 ^ (11 + k) ∣ x.units := by
      have hspacing := Binary64.spacing_dvd_of_le (n := 2 ^ (63 + k)) hbits (by rw [hlog]; exact hhalf)
      rw [Binary64.spacing, hlog] at hspacing
      exact (Nat.pow_dvd_pow 2 (by omega)).trans hspacing
    obtain ⟨m, hm⟩ := hdvd
    rw [hm, Nat.pow_add, Nat.mul_right_comm] at h ⊢
    have hlt := Nat.lt_of_mul_lt_mul_right h
    have hpow : Nat.pow 2 64 = 2 ^ 11 * 2 ^ 53 := by decide
    rw [hpow] at hlt ⊢
    exact Nat.mul_le_mul_right _ (by omega)
  · rw [Nat.not_le] at hhalf
    refine Nat.le_trans (Nat.le_of_lt hhalf) ?_
    rw [Nat.pow_add]
    exact Nat.mul_le_mul_right _ (by decide)

/-- **The bound of a duration**: a number that is not negative fits exactly if it is less than
`2 ^ 64`. -/
theorem fits_iff_lt (hbits : Binary64.HasBits x.units) (hneg : x.negative = false) :
    Fits x ↔ x.units < Nat.pow 2 64 * Binary64.one := by
  constructor
  · intro h
    by_contra hge
    exact not_fits_of_le_units hneg (Nat.not_lt.mp hge) h
  · exact fun h => fits_of_units_le (units_le_of_lt hbits h)

end Duration

/-! ## Calm declarations -/

def CompileError.isTooLong : CompileError → Bool
  | tooLong => true
  | _ => false

/-- A declaration does not end at a number of seconds that no duration holds. -/
def Calm {α : Type} (x : Except CompileError α) : Prop := x ≠ .error .tooLong

instance {α : Type} (x : Except CompileError α) : Decidable (Calm x) :=
  match x with
  | .ok _ => isTrue fun h => nomatch h
  | .error e =>
    decidable_of_iff (e.isTooLong = false) <| by
      cases e <;> simp [Calm, CompileError.isTooLong]

namespace Calm

variable {α β : Type} {x : Except CompileError α}

theorem ok (a : α) : Calm (.ok a) := fun h => nomatch h

theorem invalid (part : String) (fault : Fault) :
    Calm (.error (.invalid part fault) : Except _ α) := fun h => nomatch h

theorem unknownType (kind key : String) : Calm (.error (.unknownType kind key) : Except _ α) :=
  fun h => nomatch h

theorem malformedNode (fault : NodeFault) : Calm (.error (.malformedNode fault) : Except _ α) :=
  fun h => nomatch h

theorem template (x : Except TemplateError α) : Calm (x.mapError CompileError.template) := by
  intro h
  obtain ⟨e, -, he⟩ := Except.eq_error_of_mapError h
  cases he

theorem of_error {e : CompileError} (h : Calm (.error e : Except _ α)) :
    Calm (.error e : Except _ β) :=
  fun he => h (congrArg _ (Except.error.inj he))

theorem bind {f : α → Except CompileError β} (hx : Calm x) (hf : ∀ a, x = .ok a → Calm (f a)) :
    Calm (x >>= f) := by
  intro h
  rcases Except.eq_error_of_bind h with h | ⟨a, ha, h⟩
  · exact hx h
  · exact hf a ha h

theorem map (g : α → β) (hx : Calm x) : Calm (x.map g) := by
  cases x with
  | ok a => exact .ok _
  | error e => exact fun h => hx (by cases h; rfl)

theorem mapM {f : β → Except CompileError α} {items : List β} (h : ∀ b, Calm (f b)) :
    Calm (items.mapM f) := by
  induction items with
  | nil => exact .ok _
  | cons item items ih =>
    rw [List.mapM_cons]
    exact (h item).bind fun _ _ => ih.bind fun _ _ => .ok _

theorem foldlM {f : α → β → Except CompileError α} {items : List β}
    (h : ∀ a, ∀ b ∈ items, Calm (f a b)) (a : α) : Calm (items.foldlM f a) := by
  induction items generalizing a with
  | nil => exact .ok _
  | cons item items ih =>
    rw [List.foldlM_cons]
    exact (h a item (List.mem_cons_self ..)).bind fun b _ =>
      ih (fun a b hb => h a b (List.mem_cons_of_mem _ hb)) b

end Calm

/-! ## Conversions -/

namespace Duration

variable {x : Binary64}

theorem ofSeconds_eq_ok_iff {d : Duration} : ofSeconds x = .ok d ↔ ofSeconds? x = some d := by
  rw [ofSeconds]
  cases ofSeconds? x with
  | none =>
    constructor
    · intro h
      cases h
    · intro h
      cases h
  | some e =>
    constructor
    · intro h
      cases h
      rfl
    · intro h
      cases h
      rfl

theorem calm_ofSeconds (hsign : (!x.negative || x.isZero) = true) (h : Fits x) :
    Calm (ofSeconds x) := by
  obtain ⟨d, hd⟩ := Option.isSome_iff_exists.mp (isSome_of_fits hsign h)
  rw [ofSeconds_eq_ok_iff.mpr hd]
  exact .ok d

/-- Only a number that fits is converted. -/
theorem fits_of_ofSeconds {d : Duration} (h : ofSeconds x = .ok d) : Fits x := by
  intro _
  rw [ofSeconds_eq_ok_iff.mp h]
  rfl

end Duration

/-! ## Fields -/

theorem Fields.calm_ofValue (v : Value) (part : String) : Calm (ofValue v part) := by
  refine .map _ ?_
  unfold entries
  split
  · exact .ok _
  · refine .bind (.mapM fun item => ?_) fun _ _ => .ok _
    unfold entriesOf
    split
    · exact .ok _
    · exact .invalid _ _
  · exact .ok _
  · exact .invalid _ _

theorem Fields.calm_lowered (v : Value) (part : String) : Calm (lowered v part) :=
  .map _ (calm_ofValue v part)

theorem Value.calm_singleKey (node : Value) : Calm node.singleKey := by
  unfold singleKey
  split
  · exact .ok _
  · exact .malformedNode _

/-! ## Extractors, validators and generators -/

theorem Extractor.calm_declare (kind : ExtractorKind) (config : Value) :
    Calm (declare kind config) := by
  have hquery : Calm (queryOf kind config) := by
    unfold queryOf
    split
    · split
      · exact .invalid _ _
      · exact .ok _
    · exact .ok _
    · exact .invalid _ _
  cases kind with
  | rawBody => exact .ok _
  | constant => exact .ok _
  | _ => exact hquery.map _

namespace GeneratorKind

theorem calm_integerOf (kind : GeneratorKind) (config : Mapping) (field : String) :
    Calm (integerOf kind config field) := by
  unfold integerOf
  dsimp only
  split
  · exact .ok _
  · split
    · exact .ok _
    · exact .invalid _ _
  · split
    · exact .ok _
    · exact .invalid _ _
  · exact .invalid _ _

theorem calm_valuesOf (kind : GeneratorKind) (config : Mapping) : Calm (valuesOf kind config) := by
  unfold valuesOf
  split
  · exact .invalid _ _
  · exact .ok _
  · exact .invalid _ _

theorem calm_build (kind : GeneratorKind) (config : Mapping) : Calm (build kind config) := by
  cases kind with
  | sequence =>
    exact (calm_integerOf _ _ _).bind fun _ _ => (calm_integerOf _ _ _).bind fun _ _ => .ok _
  | doubling => exact (calm_integerOf _ _ _).bind fun _ _ => .ok _
  | fixed => exact (calm_valuesOf _ _).map _
  | cycle => exact (calm_valuesOf _ _).map _
  | environmentVariable =>
    unfold build
    dsimp only
    split
    · exact .ok _
    · exact .invalid _ _
  | environmentText =>
    unfold build
    dsimp only
    split
    · exact .ok _
    · exact .invalid _ _

theorem calm_declare (kind : GeneratorKind) (config : Value) (bindings : Mapping) :
    Calm (kind.declare config bindings) := by
  have hbuild : ∀ config, Calm (do build kind (← mappingOf kind config)) := by
    intro config
    refine .bind ?_ fun fields _ => calm_build kind fields
    unfold mappingOf
    split
    · exact .ok _
    · exact .invalid _ _
  unfold declare
  split
  · exact .bind (.ok _) fun config _ => hbuild config
  · exact .bind (.template _) fun config _ => hbuild config

end GeneratorKind

namespace Registry

variable (r : Registry)

theorem calm_singleType (node : Value) (part : String) : Calm (singleType node part) := by
  unfold singleType
  split
  · exact .ok _
  · exact .invalid _ _

theorem calm_declareExtractor (key : String) (config : Value) :
    Calm (r.declareExtractor key config) := by
  unfold declareExtractor
  split
  · exact Extractor.calm_declare _ _
  · exact .unknownType _ _

theorem calm_declareGenerator (key : String) (config : Value) (bindings : Mapping) :
    Calm (r.declareGenerator key config bindings) := by
  unfold declareGenerator
  split
  · exact GeneratorKind.calm_declare _ _ _
  · exact .unknownType _ _

theorem calm_embeddedExtractor (config : Mapping) (part : String) :
    Calm (r.embeddedExtractor config part) := by
  unfold embeddedExtractor
  split
  · exact .invalid _ _
  · refine (r.calm_declareExtractor _ _).bind fun x _ => ?_
    split
    · exact .ok _
    · exact .invalid _ _

theorem calm_expectedOf (expected : Value) : Calm (r.expectedOf expected) := by
  unfold expectedOf
  split
  · split
    · exact .ok _
    · split
      · exact (r.calm_embeddedExtractor _ _).map _
      · exact .ok _
  · exact .ok _
  · exact .ok _

theorem calm_textOf (kind : ValidatorKind) (config : Value) : Calm (textOf kind config) := by
  unfold textOf
  split
  · exact .ok _
  · exact .ok _
  · exact .ok _
  · exact .invalid _ _

theorem calm_validatorMapping (kind : ValidatorKind) (config : Value) :
    Calm (validatorMapping kind config) := by
  unfold validatorMapping
  split
  · exact .ok _
  · exact .invalid _ _

theorem calm_buildValidator (kind : ValidatorKind) (config : Value) :
    Calm (r.buildValidator kind config) := by
  cases kind with
  | contains => exact (calm_textOf _ _).map _
  | notContains => exact (calm_textOf _ _).map _
  | extractTest =>
    unfold buildValidator
    refine (calm_validatorMapping _ _).bind fun fields _ => ?_
    split
    · split
      · exact (r.calm_embeddedExtractor _ _).bind fun _ _ => .ok _
      · exact .invalid _ _
    · exact .invalid _ _
  | comparison =>
    unfold buildValidator
    refine (calm_validatorMapping _ _).bind fun fields _ => ?_
    dsimp only
    split
    · exact .unknownType _ _
    · split
      · exact .invalid _ _
      · exact (r.calm_expectedOf _).bind fun _ _ =>
          (r.calm_embeddedExtractor _ _).bind fun _ _ => .ok _
  | assertTrue =>
    unfold buildValidator
    exact (calm_validatorMapping _ _).bind fun fields _ =>
      (r.calm_embeddedExtractor _ _).bind fun _ _ => .ok _

theorem calm_declareValidator (key : String) (config : Value) :
    Calm (r.declareValidator key config) := by
  unfold declareValidator
  split
  · exact r.calm_buildValidator _ _
  · exact .unknownType _ _

end Registry

end HttpSuite
