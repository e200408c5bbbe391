import HttpSuite.Proofs.Actions
import HttpSuite.Proofs.Template

/-!
# Names without a value

A template has a value exactly when each of its names has one, and otherwise it fails at the first
name without one.  `Template.names` collects the names, each once, and `Template.resolve` looks them
up as it comes to them, a text that is one reference between blanks at once and any other text piece
by piece.  That the two agree on which name comes first is `resolve_obeys`.

## The argument

`Obeys` says of an action that it fails as the first failing lookup among some names does, and
succeeds if there is none.  It holds of every lookup, and of two actions one after another it holds
at the names of the first and then of the second.  So it holds of resolving a value at its
references, as often as they occur (`resolve_paired`).  Leaving out the repetitions does not change
which name is the first that fails, since a name that fails has not occurred before it
(`Obeys.foldl_addName`).

The statement for variables and the one for environment variables are both read off it, in
`Context.resolveBound_obeys_names`.
-/

namespace HttpSuite

namespace Template

variable {ε α β : Type}

/-- The action succeeds where every name is found.  Otherwise it fails as the first name that is not
found does. -/
inductive Obeys (lookup : String → Except ε Value) {α : Type} :
    List String → Except ε α → Prop where
  | succeeds {names : List String} (h : ∀ name ∈ names, ∃ v, lookup name = .ok v) (a : α) :
      Obeys lookup names (.ok a)
  | fails {before after : List String} {name : String} {e : ε}
      (h : ∀ n ∈ before, ∃ v, lookup n = .ok v) (hname : lookup name = .error e) :
      Obeys lookup (before ++ name :: after) (.error e)

namespace Obeys

variable {lookup : String → Except ε Value} {names later : List String}

theorem of_lookup (name : String) : Obeys lookup [name] (lookup name) := by
  cases h : lookup name with
  | ok v =>
    refine .succeeds (fun n hn => ?_) v
    rw [List.mem_singleton.mp hn]
    exact ⟨v, h⟩
  | error e =>
    have hnone : ∀ n ∈ ([] : List String), ∃ v, lookup n = .ok v := fun n hn => nomatch hn
    exact .fails hnone h

/-- One action after another. -/
theorem bind {x : Except ε α} {f : α → Except ε β} (hx : Obeys lookup names x)
    (hf : ∀ a, Obeys lookup later (f a)) : Obeys lookup (names ++ later) (x >>= f) := by
  cases hx with
  | succeeds hnames a =>
    change Obeys lookup (names ++ later) (f a)
    have hfa := hf a
    generalize f a = y at hfa
    cases hfa with
    | succeeds hlater b =>
      refine .succeeds (fun name hname => ?_) b
      rcases List.mem_append.mp hname with h | h
      · exact hnames name h
      · exact hlater name h
    | @fails before after name e hbefore hname =>
      rw [← List.append_assoc]
      refine .fails (fun n hn => ?_) hname
      rcases List.mem_append.mp hn with h | h
      · exact hnames n h
      · exact hbefore n h
  | @fails before after name e hbefore hname =>
    change Obeys lookup (before ++ name :: after ++ later) (.error e)
    rw [List.append_assoc, List.cons_append]
    exact .fails hbefore hname

theorem map {x : Except ε α} (h : Obeys lookup names x) (f : α → β) :
    Obeys lookup names (x >>= fun a => pure (f a)) := by
  have hnone : ∀ n ∈ ([] : List String), ∃ v, lookup n = .ok v := fun n hn => nomatch hn
  have hbind := h.bind fun a => .succeeds hnone (f a)
  rwa [List.append_nil] at hbind

theorem forall_of_ok {a : α} (h : Obeys lookup names (.ok a)) :
    ∀ name ∈ names, ∃ v, lookup name = .ok v := by
  cases h with
  | succeeds hnames _ => exact hnames

/-- What an action would have given does not matter where it fails. -/
theorem of_error {e : ε} (h : Obeys lookup names (.error e : Except ε α)) :
    Obeys lookup names (.error e : Except ε β) := by
  cases h with
  | fails hbefore hname => exact .fails hbefore hname

theorem paired (lookup : String → Except ε Value) :
    Paired lookup lookup (fun names x _ => Obeys lookup names x) where
  lookup := of_lookup
  pure := fun a => .succeeds (fun _ hname => absurd hname List.not_mem_nil) a
  bind := fun hx hf => hx.bind hf

/-- **Names that occur again make no difference.** -/
theorem foldl_addName {x : Except ε α} (h : Obeys lookup names x) :
    Obeys lookup (names.foldl addName []) x := by
  have hmem {l : List String} {n : String} (hn : n ∈ l.foldl addName []) : n ∈ l :=
    Entries.mem_foldl_addKey_nil.mp hn
  cases h with
  | succeeds hnames a => exact .succeeds (fun name hname => hnames name (hmem hname)) a
  | @fails before after name e hbefore hname =>
    have hnew : name ∉ before.foldl addName [] := by
      intro hin
      obtain ⟨v, hv⟩ := hbefore name (hmem hin)
      rw [hname] at hv
      cases hv
    obtain ⟨more, hmore⟩ := Entries.prefix_foldl_addKey (before.foldl addName [] ++ [name]) after
    change _ = after.foldl addName _ at hmore
    rw [List.foldl_append, List.foldl_cons, addName, if_neg hnew, ← hmore, List.append_assoc]
    exact .fails (fun n hn => hbefore n (hmem hn)) hname

end Obeys

/-- **Resolving a value follows its names.** -/
theorem resolve_obeys (lookup : String → Except ε Value) (v : Value) :
    Obeys lookup (names v) (resolve lookup v) := by
  rw [names, namesFrom_eq]
  exact (resolve_paired (Obeys.paired lookup) v).foldl_addName

/-- So does looking up a list of names. -/
theorem mapM_obeys (lookup : String → Except ε Value) (names : List String) :
    Obeys lookup names
      (names.mapM (m := Except ε) fun name => do return (name, ← lookup name)) := by
  induction names with
  | nil => exact .succeeds (fun _ hname => absurd hname List.not_mem_nil) _
  | cons name rest ih =>
    have hname : Obeys lookup [name] (do return (name, ← lookup name)) :=
      (Obeys.of_lookup name).map fun v => (name, v)
    rw [List.mapM_cons]
    exact hname.bind fun _ => ih.map _

/-- The first of some names that has no value. -/
def firstWithout? (has : String → Option β) (names : List String) : Option String :=
  names.find? fun name => (has name).isNone

section Table

variable {lookup : String → Except ε Value} {has : String → Option β} {fault : String → ε}
  {names : List String} {x : Except ε α}
  (hsome : ∀ name b, has name = some b → ∃ v, lookup name = .ok v)
  (hnone : ∀ name, has name = none → lookup name = .error (fault name))

include hsome hnone

theorem exists_lookup_iff (name : String) :
    (∃ v, lookup name = .ok v) ↔ (has name).isSome = true := by
  cases h : has name with
  | none => simp [hnone name h]
  | some b => simp [hsome name b h]

/-- What follows names that are looked up in a table succeeds where the table has all of them. -/
theorem Obeys.exists_ok_iff (h : Obeys lookup names x) :
    (∃ a, x = .ok a) ↔ ∀ name ∈ names, (has name).isSome = true := by
  have hiff := exists_lookup_iff hsome hnone
  cases h with
  | succeeds hnames a =>
    exact ⟨fun _ name hname => (hiff name).mp (hnames name hname), fun _ => ⟨a, rfl⟩⟩
  | @fails before after name e hbefore hname =>
    constructor
    · rintro ⟨a, ha⟩
      cases ha
    · intro hall
      obtain ⟨v, hv⟩ := (hiff name).mpr (hall name (by simp))
      rw [hname] at hv
      cases hv

/-- Otherwise it fails at the first name that the table lacks. -/
theorem Obeys.eq_error_iff (h : Obeys lookup names x) {e : ε} :
    x = .error e ↔ ∃ name, firstWithout? has names = some name ∧ e = fault name := by
  have hiff := exists_lookup_iff hsome hnone
  cases h with
  | succeeds hnames a =>
    have hall : firstWithout? has names = none := by
      rw [firstWithout?, List.find?_eq_none]
      intro name hname
      have hfound := (hiff name).mp (hnames name hname)
      simpa [Option.isSome_iff_ne_none] using hfound
    rw [hall]
    simp
  | @fails before after name e' hbefore hname =>
    have hlacks : has name = none := by
      cases hhas : has name with
      | none => rfl
      | some b =>
        obtain ⟨v, hv⟩ := hsome name b hhas
        rw [hname] at hv
        cases hv
    have he : e' = fault name := by
      have := hname.symm.trans (hnone name hlacks)
      simpa using this
    have hfirst : firstWithout? has (before ++ name :: after) = some name := by
      rw [firstWithout?, List.find?_eq_some_iff_append]
      refine ⟨by simp [hlacks], before, after, rfl, fun n hn => ?_⟩
      have hfound := (hiff n).mp (hbefore n hn)
      simpa [Option.isSome_iff_ne_none] using hfound
    rw [hfirst, he]
    simp [eq_comm]

end Table

end Template

/-! ## Environment variables -/

namespace Environment

variable (env : Environment) (template : String)

/-- The environment variables that a template refers to, with their values. -/
def collect : Except GeneratorError Mapping :=
  (Template.names (.string template)).mapM fun name => do return (name, ← env.lookup name)

/-- A lookup among collected values.  The template that they are collected for refers to no other
name. -/
def lookupCollected (bound : Mapping) (name : String) : Except GeneratorError Value :=
  match Entries.get? name bound with
  | some value => .ok value
  | none => .error (.missingEnvironment (TemplateError.unbound name).message)

theorem render_eq : env.render template = do
    let bound ← env.collect template
    let resolved ← Template.resolveText (lookupCollected bound) template
    return .string resolved.render := rfl

variable {env template}

/-- Values that are collected are there for every name. -/
theorem isSome_get?_of_collect {bound : Mapping} (h : env.collect template = .ok bound)
    {name : String} (hname : name ∈ Template.names (.string template)) :
    (Entries.get? name bound).isSome = true := by
  have hkeys : Entries.keys bound = Template.names (.string template) := by
    have hentries := mapM_eq_ok_iff.mp h
    clear h
    generalize Template.names (.string template) = names at hentries
    induction hentries with
    | nil => rfl
    | @cons name entry names bound hentry _ ih =>
      obtain ⟨value, -, hpair⟩ := Except.eq_ok_of_bind hentry
      cases hpair
      exact congrArg (name :: ·) ih
  rwa [Entries.get?_isSome_iff, hkeys]

/-- **A template over collected values has a value.**  So the error for a name that has not been
collected never comes up. -/
theorem exists_resolveText_collected {bound : Mapping} (h : env.collect template = .ok bound) :
    ∃ w, Template.resolveText (lookupCollected bound) template = .ok w ∧
      env.render template = .ok (.string w.render) := by
  have hobeys := Template.resolve_obeys (lookupCollected bound) (.string template)
  have hsome : ∀ name b, Entries.get? name bound = some b →
      ∃ v, lookupCollected bound name = .ok v := by
    intro name b hb
    exact ⟨b, by rw [lookupCollected, hb]⟩
  have hnone : ∀ name, Entries.get? name bound = none → lookupCollected bound name =
      .error (.missingEnvironment (TemplateError.unbound name).message) := by
    intro name hb
    rw [lookupCollected, hb]
  obtain ⟨w, hw⟩ := (hobeys.exists_ok_iff hsome hnone).mpr fun name hname =>
    isSome_get?_of_collect h hname
  have hresolved : Template.resolveText (lookupCollected bound) template = .ok w := hw
  refine ⟨w, hresolved, ?_⟩
  rw [render_eq, h]
  change (do
    let resolved ← Template.resolveText (lookupCollected bound) template
    return Value.string resolved.render : Except GeneratorError Value) = _
  rw [hresolved]
  rfl

/-- Rendering follows the names of the template. -/
theorem render_obeys (env : Environment) (template : String) :
    Template.Obeys env.lookup (Template.names (.string template)) (env.render template) := by
  have hcollect := Template.mapM_obeys env.lookup (Template.names (.string template))
  change Template.Obeys env.lookup _ (env.collect template) at hcollect
  cases hbound : env.collect template with
  | error e =>
    rw [hbound] at hcollect
    rw [render_eq, hbound]
    exact hcollect.of_error
  | ok bound =>
    rw [hbound] at hcollect
    obtain ⟨w, -, hrendered⟩ := exists_resolveText_collected hbound
    rw [hrendered]
    exact .succeeds hcollect.forall_of_ok _

theorem exists_lookup_of_some (env : Environment) (name value : String)
    (h : Entries.get? name env = some value) : ∃ v, env.lookup name = .ok v :=
  ⟨.string value, by rw [lookup, h]⟩

theorem lookup_of_none (env : Environment) (name : String) (h : Entries.get? name env = none) :
    env.lookup name = .error (.missingEnvironment name) := by
  rw [lookup, h]

end Environment

/-! ## Variables -/

namespace Context

theorem exists_lookupBound_of_some (c : Context) (name : String) (v : Value)
    (h : c.get? name = some v) : ∃ w, c.lookupBound name = .ok w :=
  ⟨v, by rw [lookupBound, h]⟩

theorem lookupBound_of_none (c : Context) (name : String) (h : c.get? name = none) :
    c.lookupBound name = .error (.unbound name) := by
  rw [lookupBound, h]

/-- **A template has a value where all its names have one, and fails at the first that has none.**

Over variables this says when resolving a value against them succeeds, which error it fails with
otherwise, and that no other variable matters.  Over the environment it says the same of a generator
that is a template over environment variables; the error that it keeps for a name that it has not
looked up beforehand never comes up. -/
theorem resolveBound_obeys_names (c d : Context) (v : Value) (env : Environment)
    (template : String) :
    ((∃ w, c.resolveBound v = .ok w) ↔ ∀ name ∈ Template.names v, (c.get? name).isSome = true) ∧
    (∀ e, c.resolveBound v = .error e ↔
      ∃ name, Template.firstWithout? c.get? (Template.names v) = some name ∧ e = .unbound name) ∧
    ((∀ name ∈ Template.names v, c.get? name = d.get? name) →
      c.resolveBound v = d.resolveBound v) ∧
    let names := Template.names (.string template)
    let next := ((Generator.environmentText template).start.pull env).1
    ((∃ e, next = .error e) ↔ ∃ name ∈ names, Entries.get? name env = none) ∧
    (∀ e, next = .error e ↔ ∃ name,
      Template.firstWithout? (fun name => Entries.get? name env) names = some name ∧
        e = .missingEnvironment name) ∧
    (∀ bound, env.collect template = .ok bound →
      ∃ w, Template.resolveText (Environment.lookupCollected bound) template = .ok w ∧
        next = .ok (.string w.render)) := by
  have hvariables := Template.resolve_obeys c.lookupBound v
  have hok := hvariables.exists_ok_iff c.exists_lookupBound_of_some c.lookupBound_of_none
  have herror {e : TemplateError} := hvariables.eq_error_iff (e := e)
    c.exists_lookupBound_of_some c.lookupBound_of_none
  have henv := env.render_obeys template
  have henvOk := henv.exists_ok_iff env.exists_lookup_of_some env.lookup_of_none
  have henvError {e : GeneratorError} := henv.eq_error_iff (e := e)
    env.exists_lookup_of_some env.lookup_of_none
  refine ⟨hok, fun e => herror, fun hagree => ?_, ?_, fun e => henvError,
    fun bound hbound => Environment.exists_resolveText_collected hbound⟩
  · refine Template.resolve_congr fun name hname => ?_
    have hsame := hagree name (Template.mem_names.mpr hname)
    rw [lookupBound, lookupBound, hsame]
  · change (∃ e, env.render template = .error e) ↔ _
    constructor
    · rintro ⟨e, he⟩
      obtain ⟨name, hfirst, -⟩ := henvError.mp he
      have hmem := List.mem_of_find?_eq_some hfirst
      have hlacks := List.find?_some hfirst
      exact ⟨name, hmem, by simpa using hlacks⟩
    · rintro ⟨name, hmem, hlacks⟩
      cases hrender : env.render template with
      | error e => exact ⟨e, rfl⟩
      | ok w =>
        have hall := henvOk.mp ⟨w, hrender⟩ name hmem
        rw [hlacks] at hall
        cases hall

end Context

end HttpSuite
