import HttpSuite.Proofs.Failures
import HttpSuite.Proofs.Template.Substitution
import HttpSuite.Proofs.Template.Unbound

/-!
# The expected value of a comparison

An expected value that does not declare an extractor is a template in two cases: it is a text, or it
is marked as one (`Value.IsTemplated`).  A template is resolved against the variables whenever a
response is looked at, so its references are replaced at any depth and a name that is not bound
makes the validator raise an exception.  A text without references counts as well, since it resolves
to itself.

Every other value is compared as it is written.  So a list or a mapping that is not marked is never
resolved, and what comes of it is what resolving it would give only if that changes nothing
(`Validator.expectedValue_iff_resolved`).
-/

namespace HttpSuite

variable {r : Registry} {fields : Mapping} {e : Value} {v : Validator} {x : Extractor}
  {k : Comparator} {body : List UInt8} {headers : Headers} {c : Context}

/-- A value that is a text or marked as a template. -/
def Value.IsTemplated (e : Value) : Prop :=
  (∃ v, e = .object [("template", v)]) ∨ ∃ s, e = .string s

/-- A value with the name of an extractor as its one key. -/
def Registry.DeclaresExtractor (r : Registry) (e : Value) : Prop :=
  ∃ key v, e = .object [(key, v)] ∧ key ≠ "template" ∧ r.hasExtractor key = true

theorem Value.unmark_eq_self (h : ¬ ∃ v, e = .object [("template", v)]) : e.unmark = e := by
  unfold unmark
  split
  · exact absurd ⟨_, rfl⟩ h
  · rfl

/-! ## What is built -/

/-- A value that does not declare an extractor is a template, or it is taken as written. -/
theorem Registry.expectedOf_cases (h : ¬ r.DeclaresExtractor e) :
    (e.IsTemplated ∧ r.expectedOf e = .ok (.template e.unmark)) ∨
      ((e.IsTemplated → Template.names e = [] ∧ e.unmark = e) ∧
        r.expectedOf e = .ok (.literal e)) := by
  unfold expectedOf
  split
  · rename_i key v
    by_cases hkey : key = "template"
    · subst hkey
      exact .inl ⟨.inl ⟨v, rfl⟩, if_pos rfl⟩
    · have hx : ¬ r.hasExtractor key = true := fun hx => h ⟨key, v, rfl, hkey, hx⟩
      refine .inr ⟨?_, by rw [if_neg hkey, if_neg hx]⟩
      rintro (⟨w, hw⟩ | ⟨s, hs⟩)
      · cases hw
        exact absurd rfl hkey
      · cases hs
  · rename_i s
    by_cases hs : Template.isTemplate s = true
    · exact .inl ⟨.inr ⟨s, rfl⟩, by rw [if_pos hs]; rfl⟩
    · exact .inr ⟨fun _ => ⟨Template.names_of_not_isTemplate hs, rfl⟩, by rw [if_neg hs]⟩
  · rename_i hnone hstring
    refine .inr ⟨?_, rfl⟩
    rintro (⟨w, rfl⟩ | ⟨s, rfl⟩)
    · exact absurd rfl (hnone "template" w)
    · exact absurd rfl (hstring s)

theorem Registry.comparison_of_buildValidator
    (h : r.buildValidator .comparison (.object fields) = .ok v)
    (he : Entries.get? "expected" fields = some e) :
    ∃ x k expected, r.expectedOf e = .ok expected ∧ v = .comparison x k expected := by
  unfold buildValidator at h
  obtain ⟨_, hfields, h⟩ := Except.eq_ok_of_bind h
  cases hfields
  simp only at h
  split at h
  · cases h
  · rename_i k _
    rw [he] at h
    obtain ⟨expected, hexpected, h⟩ := Except.eq_ok_of_bind h
    obtain ⟨x, -, h⟩ := Except.eq_ok_of_bind h
    cases h
    exact ⟨x, k, expected, hexpected, rfl⟩

/-! ## What is compared -/

namespace Validator

/-- The failure of an expected value that does not resolve. -/
def unresolved (v : Validator) (e : TemplateError) : Failure :=
  v.fail .validatorException ("Cannot resolve expected value: " ++ e.message) none

/-- What a value gives as a template. -/
def resolved (v : Validator) (e : Value) (c : Context) : Except Failure Value :=
  (c.resolveBound e).mapError v.unresolved

theorem resolved_eq_ok_iff {w : Value} : v.resolved e c = .ok w ↔ c.resolveBound e = .ok w := by
  constructor
  · exact Except.eq_ok_of_mapError
  · intro h
    rw [resolved, h]
    rfl

/-- A value without references is the same as a template. -/
theorem resolved_of_names (h : Template.names e = []) : v.resolved e c = .ok e :=
  resolved_eq_ok_iff.mpr (c.resolveBound_of_names h)

/-- A template with all names bound has its references replaced. -/
theorem exists_resolved (v : Validator)
    (h : ∀ name ∈ Template.names e, (c.get? name).isSome = true) :
    ∃ w, v.resolved e c = .ok w ∧ ∀ w', Template.Substituted c.value e w' ↔ w' = w :=
  ⟨Template.filled c.value e, resolved_eq_ok_iff.mpr (Context.resolveBound_eq_ok_filled h),
    Template.substituted_iff e⟩

/-- A template fails at its first name that is not bound. -/
theorem resolved_eq_error {name : String}
    (h : Template.firstWithout? c.get? (Template.names e) = some name) :
    v.resolved e c = .error (v.unresolved (.unbound name)) := by
  have hobeys := Template.resolve_obeys c.lookupBound e
  have herror : c.resolveBound e = .error (.unbound name) :=
    (hobeys.eq_error_iff c.exists_lookupBound_of_some c.lookupBound_of_none).mpr ⟨name, h, rfl⟩
  rw [resolved, herror]
  rfl

section Built

variable {expected : Expected} (h : ¬ r.DeclaresExtractor e)
  (hexpected : r.expectedOf e = .ok expected)

include h hexpected

theorem expectedValue_of_isTemplated (htemplated : e.IsTemplated) :
    v.expectedValue expected body headers c = v.resolved e.unmark c := by
  rcases Registry.expectedOf_cases h with ⟨-, hbuilt⟩ | ⟨hplain, hbuilt⟩
  · rw [hbuilt] at hexpected
    cases hexpected
    rfl
  · rw [hbuilt] at hexpected
    cases hexpected
    obtain ⟨hnames, hunmark⟩ := hplain htemplated
    rw [hunmark]
    exact (resolved_of_names hnames).symm

theorem expectedValue_of_not_isTemplated (htemplated : ¬ e.IsTemplated) :
    v.expectedValue expected body headers c = .ok e := by
  rcases Registry.expectedOf_cases h with ⟨hmarked, -⟩ | ⟨-, hbuilt⟩
  · exact absurd hmarked htemplated
  · rw [hbuilt] at hexpected
    cases hexpected
    rfl

/-- **What is compared is the resolved value for templates, and else only by chance.** -/
theorem expectedValue_eq_resolved_iff :
    v.expectedValue expected body headers c = v.resolved e.unmark c ↔
      e.IsTemplated ∨ c.resolveBound e = .ok e := by
  by_cases htemplated : e.IsTemplated
  · exact iff_of_true (expectedValue_of_isTemplated h hexpected htemplated) (.inl htemplated)
  · have hunmark := Value.unmark_eq_self fun hmarked => htemplated (.inl hmarked)
    rw [expectedValue_of_not_isTemplated h hexpected htemplated, hunmark, eq_comm,
      resolved_eq_ok_iff, or_iff_right htemplated]

theorem expectedValue_of_names (hnames : Template.names e.unmark = []) :
    v.expectedValue expected body headers c = .ok e.unmark := by
  by_cases htemplated : e.IsTemplated
  · rw [expectedValue_of_isTemplated h hexpected htemplated, resolved_of_names hnames]
  · have hunmark := Value.unmark_eq_self fun hmarked => htemplated (.inl hmarked)
    rw [expectedValue_of_not_isTemplated h hexpected htemplated, hunmark]

end Built

section Comparison

variable {expected : Expected} (hv : v = .comparison x k expected)

include hv

/-- A comparison accepts a response if its two values are there and compare. -/
theorem validate_comparison_eq_ok_iff : v.validate body headers c = .ok () ↔
    ∃ actual wanted, v.extract x body headers c = .ok actual ∧
      v.expectedValue expected body headers c = .ok wanted ∧ k.apply actual wanted = .ok true := by
  subst hv
  constructor
  · intro h
    obtain ⟨actual, hactual, h⟩ := Except.eq_ok_of_bind h
    obtain ⟨wanted, hwanted, h⟩ := Except.eq_ok_of_bind h
    refine ⟨actual, wanted, hactual, hwanted, ?_⟩
    cases happly : k.apply actual wanted with
    | error e =>
      rw [happly] at h
      cases h
    | ok holds =>
      rw [happly] at h
      cases holds with
      | false => cases h
      | true => rfl
  · rintro ⟨actual, wanted, hactual, hwanted, happly⟩
    simp only [validate, hactual, hwanted, bind, Except.bind, happly]
    rfl

/-- Without an expected value it raises an exception, before or after the other one. -/
theorem validate_eq_error_of_expectedValue {f : Failure}
    (h : v.expectedValue expected body headers c = .error f) :
    ∃ f', v.validate body headers c = .error f' ∧ f'.kind = .validatorException := by
  subst hv
  cases hactual : (comparison x k expected).extract x body headers c with
  | error f' =>
    refine ⟨f', ?_, kind_of_extract_eq_error hactual⟩
    simp only [validate, hactual]
    rfl
  | ok actual =>
    refine ⟨f, ?_, kind_of_expectedValue_eq_error h⟩
    simp only [validate, hactual, h]
    rfl

end Comparison

/-- **An expected value is resolved if and only if it is a template.**  This is about every
comparison whose expected value does not declare an extractor.  What the extracted value is compared
with is then the resolved template, which has its references replaced at any depth if all of them
are bound, and if one is not, the validator raises an exception.  What is not a template is compared
as it is written, which is the same only if resolving would not change it.  Values without
references are such. -/
theorem expectedValue_iff_resolved
    (hbuild : r.buildValidator .comparison (.object fields) = .ok v)
    (hfield : Entries.get? "expected" fields = some e) (hplain : ¬ r.DeclaresExtractor e) :
    ∃ x k expected, v = .comparison x k expected ∧ ∀ body headers c,
      let wanted := v.expectedValue expected body headers c
      (v.validate body headers c = .ok () ↔ ∃ actual w, v.extract x body headers c = .ok actual ∧
        wanted = .ok w ∧ k.apply actual w = .ok true) ∧
      (wanted = v.resolved e.unmark c ↔ e.IsTemplated ∨ c.resolveBound e = .ok e) ∧
      (¬ e.IsTemplated → wanted = .ok e) ∧
      (Template.names e.unmark = [] → wanted = .ok e.unmark) ∧
      (e.IsTemplated → (∀ name ∈ Template.names e.unmark, (c.get? name).isSome = true) →
        ∃ w, wanted = .ok w ∧ ∀ w', Template.Substituted c.value e.unmark w' ↔ w' = w) ∧
      (e.IsTemplated → ∀ name, Template.firstWithout? c.get? (Template.names e.unmark) = some name →
        wanted = .error (v.unresolved (.unbound name)) ∧
          ∃ f, v.validate body headers c = .error f ∧ f.kind = .validatorException) := by
  obtain ⟨x, k, expected, hexpected, hv⟩ := Registry.comparison_of_buildValidator hbuild hfield
  refine ⟨x, k, expected, hv, fun body headers c => ⟨validate_comparison_eq_ok_iff hv,
    expectedValue_eq_resolved_iff hplain hexpected,
    expectedValue_of_not_isTemplated hplain hexpected, expectedValue_of_names hplain hexpected,
    fun htemplated hbound => ?_, fun htemplated name hfirst => ?_⟩⟩
  · rw [expectedValue_of_isTemplated hplain hexpected htemplated]
    exact exists_resolved v hbound
  · have hwanted : v.expectedValue expected body headers c =
        .error (v.unresolved (.unbound name)) := by
      rw [expectedValue_of_isTemplated hplain hexpected htemplated, resolved_eq_error hfirst]
    exact ⟨hwanted, validate_eq_error_of_expectedValue hv hwanted⟩

/-- A list with a reference. -/
def listed : Value := .array [.string "{{id}}", .null]

def seven : Context := (Context.empty []).bind "id" (.int 7)

/-- A comparison of identifiers with an expected value. -/
def comparing (e : Value) : Mapping := [("jsonpath_mini", .string "ids"), ("expected", e)]

/-- A list that is marked as a template, with its name bound and with it not bound. -/
theorem expectedValue_listed_marked :
    ∃ v x k expected, Registry.builtins.buildValidator .comparison
        (.object (comparing (.object [("template", listed)]))) = .ok v ∧
      v = .comparison x k expected ∧
      (∃ w, v.expectedValue expected [] [] seven = .ok w ∧
        Template.Substituted seven.value listed w) ∧
      ∃ f, v.validate [] [] (.empty []) = .error f ∧ f.kind = .validatorException := by
  have hplain : ¬ Registry.builtins.DeclaresExtractor (.object [("template", listed)]) := by
    rintro ⟨key, v, h, hkey, -⟩
    cases h
    exact hkey rfl
  have hmarked : (Value.object [("template", listed)]).IsTemplated := .inl ⟨listed, rfl⟩
  have hbound : ∀ name ∈ Template.names listed, (seven.get? name).isSome = true := by
    decide +kernel
  have hlacks : Template.firstWithout? (Context.empty []).get? (Template.names listed) =
      some "id" := by
    decide +kernel
  obtain ⟨v, hbuild⟩ := Except.exists_ok_of_isSome
    (x := Registry.builtins.buildValidator .comparison
      (.object (comparing (.object [("template", listed)])))) (by decide +kernel)
  obtain ⟨x, k, expected, hv, h⟩ := expectedValue_iff_resolved hbuild rfl hplain
  obtain ⟨-, -, -, -, hresolves, -⟩ := h [] [] seven
  obtain ⟨-, -, -, -, -, hraises⟩ := h [] [] (.empty [])
  obtain ⟨w, hw, hunique⟩ := hresolves hmarked hbound
  exact ⟨v, x, k, expected, hbuild, hv, ⟨w, hw, (hunique w).mpr rfl⟩,
    (hraises hmarked "id" hlacks).2⟩

/-- The same list without the mark is compared as it is written, whatever the name is bound to. -/
theorem listed_unresolved :
    ∃ v x k expected, Registry.builtins.buildValidator .comparison
        (.object (comparing listed)) = .ok v ∧
      v = .comparison x k expected ∧ ¬ Registry.builtins.DeclaresExtractor listed ∧
      (∀ body headers c, v.expectedValue expected body headers c = .ok listed) ∧
      ∀ body headers, v.expectedValue expected body headers seven ≠ v.resolved listed seven := by
  have hplain : ¬ Registry.builtins.DeclaresExtractor listed := fun ⟨_, _, h, _⟩ => nomatch h
  have htemplated : ¬ listed.IsTemplated := by
    rintro (⟨_, h⟩ | ⟨_, h⟩)
    · cases h
    · cases h
  have htext : (seven.resolveBound listed).toOption.map Value.toText ≠ some listed.toText := by
    decide +kernel
  obtain ⟨v, hbuild⟩ := Except.exists_ok_of_isSome
    (x := Registry.builtins.buildValidator .comparison (.object (comparing listed)))
    (by decide +kernel)
  obtain ⟨x, k, expected, hexpected, hv⟩ := Registry.comparison_of_buildValidator hbuild rfl
  refine ⟨v, x, k, expected, hbuild, hv, hplain, fun _ _ _ =>
    expectedValue_of_not_isTemplated hplain hexpected htemplated, fun _ _ h => htext ?_⟩
  rw [expectedValue_of_not_isTemplated hplain hexpected htemplated] at h
  rw [resolved_eq_ok_iff.mp h.symm]
  rfl

end Validator

end HttpSuite
