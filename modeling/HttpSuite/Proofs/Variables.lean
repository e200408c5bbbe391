import HttpSuite.Check.Validator
import HttpSuite.Suite.Test

/-!
# What a pass leaves alone and what a check looks at

A pass resolves templates.  It may pull generators, but it binds nothing: the variables and the
environment after it are those before it.  Extractors and validators on the other side look at
variables and the environment only, so two contexts that show the `SameVariables` are one to them.

Both facts follow the recursion over a value once.  `Template.resolve_closed` says that whatever
holds of every lookup, and is kept by `pure` and `bind`, holds of resolving a value; it is used here
with `PassM.KeepsVariables`.
-/

namespace HttpSuite

variable {α β : Type}

/-! ## Contexts that show the same -/

/-- Two contexts in which every variable and the environment are the same.  Their generators may be
at different places. -/
structure Context.SameVariables (c d : Context) : Prop where
  environment_eq : c.environment = d.environment
  bindings_eq : c.bindings = d.bindings

namespace Context.SameVariables

variable {c d e : Context}

theorem refl (c : Context) : c.SameVariables c := ⟨rfl, rfl⟩

theorem symm (h : c.SameVariables d) : d.SameVariables c :=
  ⟨h.environment_eq.symm, h.bindings_eq.symm⟩

theorem trans (h₁ : c.SameVariables d) (h₂ : d.SameVariables e) : c.SameVariables e :=
  ⟨h₁.environment_eq.trans h₂.environment_eq, h₁.bindings_eq.trans h₂.bindings_eq⟩

theorem lookupBound_eq (h : c.SameVariables d) : c.lookupBound = d.lookupBound := by
  funext name
  rw [lookupBound, lookupBound, get?, get?, h.bindings_eq]

theorem resolveBound_eq (h : c.SameVariables d) (v : Value) :
    c.resolveBound v = d.resolveBound v := by
  rw [resolveBound, resolveBound, h.lookupBound_eq]

theorem renderBound_eq (h : c.SameVariables d) (s : String) :
    c.renderBound s = d.renderBound s := by
  rw [renderBound, renderBound, h.resolveBound_eq]

/-- An extractor looks at variables and the environment only. -/
theorem extract_eq (h : c.SameVariables d) (x : Extractor) (body : List UInt8)
    (headers : Headers) : x.extract body headers c = x.extract body headers d := by
  cases x <;>
    simp only [Extractor.extract, Extractor.render, h.renderBound_eq, h.resolveBound_eq,
      h.environment_eq]

/-- **A validator cannot tell contexts apart that show the same variables.** -/
theorem validate_eq (h : c.SameVariables d) (v : Validator) (body : List UInt8)
    (headers : Headers) : v.validate body headers c = v.validate body headers d := by
  have hx : ∀ x, v.extract x body headers c = v.extract x body headers d := by
    intro x
    rw [Validator.extract, Validator.extract, h.extract_eq]
  have hn : ∀ needle, v.needleOf needle c = v.needleOf needle d := by
    intro needle
    rw [Validator.needleOf, Validator.needleOf, h.renderBound_eq]
  have he : ∀ expected, v.expectedValue expected body headers c =
      v.expectedValue expected body headers d := by
    intro expected
    cases expected <;> simp only [Validator.expectedValue, h.resolveBound_eq, hx]
  cases v <;> simp only [Validator.validate, hx, hn, he]

end Context.SameVariables

/-! ## Resolving follows the value -/

namespace Template

/-- A property of actions that every lookup has, `pure` has and `bind` keeps. -/
structure Closed {m : Type → Type} [Monad m] (lookup : String → m Value)
    (P : ∀ {α : Type}, m α → Prop) : Prop where
  lookup : ∀ name, P (lookup name)
  pure : ∀ {α : Type} (a : α), P (pure a : m α)
  bind : ∀ {α β : Type} {x : m α} {f : α → m β}, P x → (∀ a, P (f a)) → P (x >>= f)

variable {m : Type → Type} [Monad m] {lookup : String → m Value}
  {P : ∀ {α : Type}, m α → Prop} (hP : Closed lookup P)

include hP

theorem splice_closed (pieces : List Piece) : P (splice lookup pieces) := by
  induction pieces with
  | nil => exact hP.pure _
  | cons piece rest ih =>
    cases piece with
    | char c => exact hP.bind ih fun _ => hP.pure _
    | reference name => exact hP.bind (hP.lookup name) fun _ => hP.bind ih fun _ => hP.pure _

theorem resolveText_closed (s : String) : P (resolveText lookup s) := by
  unfold resolveText
  split
  · exact hP.lookup _
  · exact hP.bind (splice_closed hP _) fun _ => hP.pure _

mutual

/-- **What holds of every lookup holds of resolving a value.** -/
theorem resolve_closed : ∀ v : Value, P (resolve lookup v)
  | .string s => resolveText_closed hP s
  | .array items => hP.bind (resolveItems_closed items) fun _ => hP.pure _
  | .object fields => hP.bind (resolveFields_closed fields) fun _ => hP.pure _
  | .null => hP.pure _
  | .bool _ => hP.pure _
  | .number _ => hP.pure _

theorem resolveItems_closed : ∀ items : List Value, P (resolveItems lookup items)
  | [] => hP.pure _
  | v :: rest => hP.bind (resolve_closed v) fun _ =>
      hP.bind (resolveItems_closed rest) fun _ => hP.pure _

theorem resolveFields_closed : ∀ fields : List (String × Value), P (resolveFields lookup fields)
  | [] => hP.pure _
  | (_, v) :: rest => hP.bind (resolve_closed v) fun _ =>
      hP.bind (resolveFields_closed rest) fun _ => hP.pure _

end

end Template

/-! ## A pass binds nothing -/

/-- Pulling a generator changes the generators only. -/
theorem Context.sameVariables_next (c : Context) (name : String) :
    c.SameVariables (c.next name).2 := by
  unfold Context.next
  split <;> exact ⟨rfl, rfl⟩

namespace PassM

/-- After the action the variables are those before it. -/
def KeepsVariables (action : PassM α) : Prop :=
  ∀ pass : Pass, pass.context.SameVariables (action.run.run pass).2.context

theorem keepsVariables_pure (a : α) : KeepsVariables (pure a : PassM α) :=
  fun _ => .refl _

theorem keepsVariables_bind {x : PassM α} {f : α → PassM β} (hx : KeepsVariables x)
    (hf : ∀ a, KeepsVariables (f a)) : KeepsVariables (x >>= f) := by
  intro pass
  have h₁ := hx pass
  rw [ExceptT.run_bind, StateT.run_bind]
  rcases hr : x.run.run pass with ⟨outcome, next⟩
  rw [hr] at h₁
  cases outcome with
  | ok a => exact h₁.trans (hf a next)
  | error e => exact h₁

theorem keepsVariables_lookup (name : String) : KeepsVariables (lookup name) := by
  intro pass
  change pass.context.SameVariables (lookup name pass).2.context
  unfold lookup
  split
  · exact .refl _
  · exact .refl _
  · split
    · have hnext := pass.context.sameVariables_next name
      split
      · rename_i hr
        rwa [hr] at hnext
      · rename_i hr
        rwa [hr] at hnext
    · exact .refl _

theorem closed_keepsVariables : Template.Closed lookup KeepsVariables where
  lookup := keepsVariables_lookup
  pure := keepsVariables_pure
  bind := keepsVariables_bind

theorem keepsVariables_resolve (v : Value) : KeepsVariables (resolve v) :=
  Template.resolve_closed closed_keepsVariables v

theorem keepsVariables_resolveString (s : String) : KeepsVariables (resolveString s) :=
  keepsVariables_bind (keepsVariables_resolve _) fun _ => keepsVariables_pure _

theorem keepsVariables_getVariable (name : String) : KeepsVariables (getVariable name) :=
  fun _ => .refl _

end PassM

namespace Test

open PassM

theorem keepsVariables_resolveUrl (t : Test) : KeepsVariables t.resolveUrl := by
  refine keepsVariables_bind (keepsVariables_resolveString _) fun url => ?_
  split
  · exact keepsVariables_pure _
  · refine keepsVariables_bind (keepsVariables_getVariable _) fun base => ?_
    cases base <;> exact keepsVariables_pure _

theorem keepsVariables_resolveHeaders (headers : Mapping) :
    KeepsVariables (resolveHeaders headers) := by
  induction headers with
  | nil => exact keepsVariables_pure _
  | cons h rest ih =>
    exact keepsVariables_bind (keepsVariables_resolve _) fun _ =>
      keepsVariables_bind ih fun _ => keepsVariables_pure _

theorem keepsVariables_resolveBody (body : Option Value) : KeepsVariables (resolveBody body) := by
  cases body with
  | none => exact keepsVariables_pure _
  | some v =>
    exact keepsVariables_bind (keepsVariables_resolve v) fun _ => keepsVariables_pure _

theorem keepsVariables_resolveAuth (t : Test) : KeepsVariables t.resolveAuth := by
  unfold resolveAuth
  split
  · exact keepsVariables_pure _
  · exact keepsVariables_bind (keepsVariables_resolve _) fun _ => keepsVariables_pure _
  · exact keepsVariables_bind (keepsVariables_resolve _) fun _ =>
      keepsVariables_bind (keepsVariables_resolve _) fun _ => keepsVariables_pure _

/-- **Resolving a request binds nothing**, whether it succeeds or not. -/
theorem keepsVariables_resolveRequest (t : Test) : KeepsVariables t.resolveRequest :=
  keepsVariables_bind t.keepsVariables_resolveUrl fun _ =>
    keepsVariables_bind (keepsVariables_resolveHeaders _) fun _ =>
      keepsVariables_bind (keepsVariables_resolveBody _) fun _ =>
        keepsVariables_bind t.keepsVariables_resolveAuth fun _ => keepsVariables_pure _

end Test

/-- After a pass of its own an action leaves the variables as they were. -/
theorem Context.sameVariables_pass (c : Context) {action : PassM α}
    (h : action.KeepsVariables) : c.SameVariables (c.pass action).2 :=
  h ⟨c, []⟩

end HttpSuite
