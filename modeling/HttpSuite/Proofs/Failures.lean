import HttpSuite.Proofs.Actions
import HttpSuite.Run.Judgement

/-!
# Extraction in order, and how checks fail

`Extracts` runs extractors in order, each seeing the values of those before it; binding extracted
values comes through exactly when there is such a run (`Preparation.run_bindExtracted_eq_ok`), and
otherwise stops at the first extractor without a value.

A preparation fails by itself or in an extractor, and a validator fails on what it looks at or
raises an exception.  `Preparation.FailsWith` follows the steps of a preparation: a property that
all failures of both parts have is one of all failures of the whole.
-/

namespace HttpSuite

variable {α β : Type}

/-! ## Extractors in order -/

/-- All extractors get their value from a response, each in the context that holds the values of
those before it; `d` holds all of them. -/
inductive Extracts (body : List UInt8) (headers : Headers) :
    List (String × Extractor) → Context → Context → Prop where
  | nil (c : Context) : Extracts body headers [] c c
  | cons {name : String} {x : Extractor} {rest : List (String × Extractor)} {c d : Context}
      {v : Value} (head : x.extract body headers c = .ok v)
      (tail : Extracts body headers rest (c.bind name v) d) :
      Extracts body headers ((name, x) :: rest) c d

namespace Preparation

variable {body : List UInt8} {headers : Headers}

theorem run_bindExtracted_cons (name : String) (x : Extractor)
    (rest : List (String × Extractor)) (c : Context) :
    (bindExtracted body headers ((name, x) :: rest)).run.run c =
      match x.extract body headers c with
      | .ok v => (bindExtracted body headers rest).run.run (c.bind name v)
      | .error e => (.error (notExtracted name e), c) := by
  change (match x.extract body headers c with
    | .ok v => bind name v >>= fun _ => bindExtracted body headers rest
    | .error e => throw (notExtracted name e) : Preparation Unit).run.run c = _
  cases x.extract body headers c <;> rfl

/-- Binding extracted values comes through exactly when every extractor gets its value. -/
theorem run_bindExtracted_eq_ok {xs : List (String × Extractor)} {c d : Context} :
    (bindExtracted body headers xs).run.run c = (.ok (), d) ↔ Extracts body headers xs c d := by
  induction xs generalizing c with
  | nil =>
    constructor
    · intro h
      cases h
      exact .nil _
    · intro h
      cases h
      rfl
  | cons x rest ih =>
    obtain ⟨name, x⟩ := x
    rw [run_bindExtracted_cons]
    constructor
    · intro h
      cases hx : x.extract body headers c with
      | ok v =>
        rw [hx] at h
        exact .cons hx (ih.mp h)
      | error e =>
        rw [hx] at h
        cases h
    · intro h
      cases h with
      | cons head tail =>
        rw [head]
        exact ih.mpr tail

/-- Otherwise one extractor gets no value, those before it do, and those after it are not run. -/
theorem run_bindExtracted_eq_error {xs : List (String × Extractor)} {c d : Context} {f : Failure}
    (h : (bindExtracted body headers xs).run.run c = (.error f, d)) :
    ∃ before name x after e, xs = before ++ (name, x) :: after ∧
      Extracts body headers before c d ∧ x.extract body headers d = .error e ∧
      f = notExtracted name e := by
  induction xs generalizing c with
  | nil => cases h
  | cons x rest ih =>
    obtain ⟨name, x⟩ := x
    rw [run_bindExtracted_cons] at h
    cases hx : x.extract body headers c with
    | ok v =>
      rw [hx] at h
      obtain ⟨before, name', x', after, e, rfl, hbefore, he, rfl⟩ := ih h
      exact ⟨(name, x) :: before, name', x', after, e, rfl, .cons hx hbefore, he, rfl⟩
    | error e =>
      rw [hx] at h
      cases h
      exact ⟨[], name, x, rest, e, rfl, .nil _, hx, rfl⟩

/-! ## Passes of their own -/

theorem run_pass (action : PassM α) (c : Context) : (pass action).run.run c =
    ((c.pass action).1.mapError unresolved, (c.pass action).2) := by
  change pass action c = _
  unfold pass
  rcases c.pass action with ⟨_ | a, d⟩ <;> rfl

theorem run_pass_eq_ok {action : PassM α} {c d : Context} {a : α}
    (h : (pass action).run.run c = (.ok a, d)) : c.pass action = (.ok a, d) := by
  rw [run_pass, Prod.mk.injEq] at h
  exact Prod.ext (Except.eq_ok_of_mapError h.1) h.2

/-! ## Failures of a preparation -/

/-- Whatever a preparation fails with has a property. -/
def FailsWith (P : Failure → Prop) (p : Preparation α) : Prop :=
  ∀ c d f, p.run.run c = (.error f, d) → P f

variable {P : Failure → Prop}

theorem failsWith_pure (a : α) : FailsWith P (pure a : Preparation α) := by
  intro c d f h
  cases h

theorem FailsWith.bind {p : Preparation α} {q : α → Preparation β} (hp : FailsWith P p)
    (hq : ∀ a, FailsWith P (q a)) : FailsWith P (p >>= q) := by
  intro c d f h
  rw [ExceptT.run_run_bind] at h
  rcases hc : p.run.run c with ⟨_ | a, e⟩
  · rw [hc] at h
    cases h
    exact hp _ _ _ hc
  · rw [hc] at h
    exact hq a _ _ _ h

theorem failsWith_bindName (name : String) (v : Value) : FailsWith P (bind name v) := by
  intro c d f h
  cases h

theorem failsWith_pass (action : PassM α) :
    FailsWith (fun f => f.kind = .testException) (pass action) := by
  intro c d f h
  rw [run_pass, Prod.mk.injEq] at h
  obtain ⟨e, -, rfl⟩ := Except.eq_error_of_mapError h.1
  rfl

theorem failsWith_bindVariables (binds : Mapping) :
    FailsWith (fun f => f.kind = .testException) (bindVariables binds) := by
  induction binds with
  | nil => exact failsWith_pure ()
  | cons x rest ih =>
    exact (failsWith_pass _).bind fun _ => (failsWith_bindName _ _).bind fun _ => ih

theorem failsWith_bindNext (name generator : String) :
    FailsWith (fun f => f.kind = .testException) (bindNext name generator) := by
  intro c d f h
  change bindNext name generator c = (.error f, d) at h
  unfold bindNext at h
  split at h
  · cases h
  · cases h
    rfl

theorem failsWith_bindGenerated (binds : List (String × String)) :
    FailsWith (fun f => f.kind = .testException) (bindGenerated binds) := by
  induction binds with
  | nil => exact failsWith_pure ()
  | cons x rest ih => exact (failsWith_bindNext _ _).bind fun _ => ih

theorem failsWith_bindExtracted (xs : List (String × Extractor)) :
    FailsWith (fun f => f.kind = .extractorException) (bindExtracted body headers xs) := by
  intro c d f h
  obtain ⟨_, _, _, _, _, _, _, _, rfl⟩ := run_bindExtracted_eq_error h
  rfl

theorem FailsWith.mono {Q : Failure → Prop} {p : Preparation α} (hp : FailsWith P p)
    (h : ∀ f, P f → Q f) : FailsWith Q p :=
  fun c d f hc => h f (hp c d f hc)

end Preparation

/-- A test whose request cannot be prepared fails by itself or in an extractor. -/
theorem Test.failsWith_prepare (t : Test) :
    t.prepare.FailsWith fun f => f.kind = .testException ∨ f.kind = .extractorException :=
  ((Preparation.failsWith_bindVariables _).mono fun _ => .inl).bind fun _ =>
    ((Preparation.failsWith_bindGenerated _).mono fun _ => .inl).bind fun _ =>
      ((Preparation.failsWith_bindExtracted _).mono fun _ => .inr).bind fun _ =>
        (Preparation.failsWith_pass _).mono fun _ => .inl

/-! ## Failures of a validator -/

namespace Validator

variable {v : Validator} {body : List UInt8} {headers : Headers} {context : Context} {f : Failure}

theorem kind_of_extract_eq_error {x : Extractor}
    (h : v.extract x body headers context = .error f) : f.kind = .validatorException := by
  obtain ⟨e, -, rfl⟩ := Except.eq_error_of_mapError h
  rfl

theorem kind_of_needleOf_eq_error {needle : String}
    (h : v.needleOf needle context = .error f) : f.kind = .validatorException := by
  obtain ⟨e, -, rfl⟩ := Except.eq_error_of_mapError h
  rfl

theorem kind_of_expectedValue_eq_error {expected : Expected}
    (h : v.expectedValue expected body headers context = .error f) :
    f.kind = .validatorException := by
  cases expected with
  | literal value => cases h
  | extracted x => exact kind_of_extract_eq_error h
  | template value =>
    obtain ⟨e, -, rfl⟩ := Except.eq_error_of_mapError h
    rfl

/-- A question about something that is looked up first: the look-up raises an exception, or the
answer is a rejection. -/
theorem kind_of_question_eq_error {x : Except Failure α} {holds : α → Bool} {g : α → Failure}
    (h : (x >>= fun a => if holds a then pure () else throw (g a)) = .error f)
    (hx : x = .error f → f.kind = .validatorException)
    (hg : ∀ a, (g a).kind = .validatorFailed) :
    f.kind = .validatorFailed ∨ f.kind = .validatorException := by
  rcases Except.eq_error_of_bind h with he | ⟨a, -, hk⟩
  · exact .inr (hx he)
  · cases hholds : holds a with
    | true =>
      rw [hholds] at hk
      cases hk
    | false =>
      rw [hholds] at hk
      cases hk
      exact .inl (hg a)

/-- A validator fails on what it looks at or raises an exception; it fails in no other way. -/
theorem kind_of_validate_eq_error (h : v.validate body headers context = .error f) :
    f.kind = .validatorFailed ∨ f.kind = .validatorException := by
  cases v with
  | contains needle => exact kind_of_question_eq_error h kind_of_needleOf_eq_error fun _ => rfl
  | notContains needle => exact kind_of_question_eq_error h kind_of_needleOf_eq_error fun _ => rfl
  | extractTest x test testName =>
    exact kind_of_question_eq_error h kind_of_extract_eq_error fun _ => rfl
  | assertTrue x message =>
    exact kind_of_question_eq_error h kind_of_extract_eq_error fun _ => rfl
  | comparison x c expected =>
    rcases Except.eq_error_of_bind h with hx | ⟨actual, -, hk⟩
    · exact .inr (kind_of_extract_eq_error hx)
    · rcases Except.eq_error_of_bind hk with he | ⟨wanted, -, hk⟩
      · exact .inr (kind_of_expectedValue_eq_error he)
      · cases hc : c.apply actual wanted with
        | error e =>
          rw [hc] at hk
          cases hk
          exact .inr rfl
        | ok holds =>
          rw [hc] at hk
          cases holds <;> cases hk
          exact .inl rfl

end Validator

end HttpSuite
