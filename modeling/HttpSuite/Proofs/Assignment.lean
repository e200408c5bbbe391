import HttpSuite.Proofs.Pass
import HttpSuite.Proofs.Template.Substitution
import HttpSuite.Proofs.Template.Unbound
import HttpSuite.Run.Runner

/-!
# Simultaneous assignment

The bind operation resolves all its templates before it binds anything, and it does so in one pass.
So it is an assignment to all its names at once: each template is read in the context before the
operation, also where it refers to a name that the operation itself binds, and a generator has one
value for the whole operation.

`Context.Assigns` says what such an assignment leaves behind.  It mentions the entries by membership
only, and it determines every variable and every generator.  That settles the order of the entries:
any other order leaves the same behind, since it assigns the same (`Context.Assigns.perm`), and there
is only one thing to leave (`Context.Assigns.unique`).

The main statement is `Operation.run_bind_assigns`.
-/

namespace HttpSuite

namespace Context

/-- The value of a reference to a name before anything is pulled: the variable, or the next value of
the generator. -/
def peeked (c : Context) (name : String) : Value := .ofOption (c.peek name).toOption

/-- A generator is pulled if one of the templates refers to it. -/
def Pulls (c : Context) (entries : Mapping) (name : String) : Prop :=
  c.generates name = true ∧ ∃ e ∈ entries, name ∈ Template.names e.2

/-- `after` is `c` with the templates assigned to their names, all at once. -/
structure Assigns (c : Context) (entries : Mapping) (after : Context) : Prop where
  known : ∀ e ∈ entries, ∀ name ∈ Template.names e.2, c.peek name = .ok (c.peeked name)
  /-- Every name has its template, with the references replaced by their values in `c`. -/
  assigned : ∀ e ∈ entries, ∃ v, Template.Substituted c.peeked e.2 v ∧ after.get? e.1 = some v
  others : ∀ name, name ∉ Entries.keys entries → after.get? name = c.get? name
  /-- A generator is pulled once, however often the templates refer to it. -/
  pulled : ∀ name, c.Pulls entries name → ∃ stream, Entries.get? name c.generators = some stream ∧
    Entries.get? name after.generators = some (stream.pull c.environment).2
  unpulled : ∀ name, ¬ c.Pulls entries name →
    Entries.get? name after.generators = Entries.get? name c.generators

variable {c after after' : Context} {entries entries' : Mapping}

theorem peek_eq_ok_peeked {name : String} (h : ∃ v, c.peek name = .ok v) :
    c.peek name = .ok (c.peeked name) := by
  obtain ⟨v, hv⟩ := h
  rw [peeked, hv]
  rfl

namespace Assigns

/-- The order of the entries makes no difference. -/
theorem perm (h : c.Assigns entries after) (hperm : entries.Perm entries') :
    c.Assigns entries' after := by
  have hpulls (name : String) : c.Pulls entries' name ↔ c.Pulls entries name := by
    simp only [Pulls, hperm.mem_iff]
  have hkeys (name : String) : name ∈ Entries.keys entries' ↔ name ∈ Entries.keys entries :=
    ((hperm.map Prod.fst).mem_iff).symm
  exact
    { known := fun e he => h.known e (hperm.mem_iff.mpr he)
      assigned := fun e he => h.assigned e (hperm.mem_iff.mpr he)
      others := fun name hname => h.others name (mt (hkeys name).mpr hname)
      pulled := fun name hname => h.pulled name ((hpulls name).mp hname)
      unpulled := fun name hname => h.unpulled name (mt (hpulls name).mpr hname) }

/-- An assignment leaves no choice about a variable or a generator. -/
theorem unique (h : c.Assigns entries after) (h' : c.Assigns entries after') (name : String) :
    after'.get? name = after.get? name ∧
      Entries.get? name after'.generators = Entries.get? name after.generators := by
  constructor
  · by_cases hname : name ∈ Entries.keys entries
    · obtain ⟨e, he, rfl⟩ := List.mem_map.mp hname
      obtain ⟨v, hv, hget⟩ := h.assigned e he
      obtain ⟨v', hv', hget'⟩ := h'.assigned e he
      rw [hget, hget', (Template.substituted_iff _ _).mp hv, (Template.substituted_iff _ _).mp hv']
    · rw [h.others name hname, h'.others name hname]
  · by_cases hname : c.Pulls entries name
    · obtain ⟨stream, hstream, hget⟩ := h.pulled name hname
      obtain ⟨stream', hstream', hget'⟩ := h'.pulled name hname
      rw [hstream] at hstream'
      cases hstream'
      rw [hget, hget']
    · rw [h.unpulled name hname, h'.unpulled name hname]

end Assigns

end Context

/-! ## Filled entries -/

namespace Template

theorem filledFields_eq_map (value : String → Value) (fields : List (String × Value)) :
    filledFields value fields = fields.map fun f => (f.1, filled value f.2) := by
  induction fields with
  | nil => rfl
  | cons f rest ih =>
    rw [List.map_cons, ← ih]
    rfl

/-- Fields are resolved only where all names in them have a value. -/
theorem forall_of_resolveFields {ε : Type} {lookup : String → Except ε Value}
    {fields values : List (String × Value)} (h : resolveFields lookup fields = .ok values) :
    ∀ f ∈ fields, ∀ name ∈ names f.2, ∃ v, lookup name = .ok v := by
  intro f hf name hname
  have hobeys := resolveFields_paired (Obeys.paired lookup) fields
  rw [h] at hobeys
  exact hobeys.forall_of_ok name (mem_referencesOfFields.mpr ⟨f, hf, mem_names.mp hname⟩)

end Template

/-! ## The operation -/

namespace Operation

open Context

variable {c : Context} {entries : Mapping}

/-- All templates are resolved as one mapping is. -/
theorem resolveAll_eq (entries : Mapping) :
    resolveAll entries = Template.resolveFields PassM.lookup entries := by
  induction entries with
  | nil => rfl
  | cons e rest ih => rw [resolveAll, Template.resolveFields, ih]; rfl

theorem foretold_resolveAll (c : Context) (entries : Mapping) :
    PassM.Foretold c (Template.referencesOfFields entries) (resolveAll entries)
      (Template.resolveFields c.peek entries) := by
  rw [resolveAll_eq]
  exact Template.resolveFields_paired (PassM.paired_foretold c) entries

theorem keepsVariables_resolveAll (entries : Mapping) :
    (resolveAll entries).KeepsVariables := by
  rw [resolveAll_eq]
  exact Template.resolveFields_closed PassM.closed_keepsVariables entries

theorem pass_resolveAll {outcome : Except TemplateError Mapping}
    (h : Template.resolveFields c.peek entries = outcome) :
    c.pass (resolveAll entries) = (outcome, (c.pass (resolveAll entries)).2) :=
  Prod.ext ((foretold_resolveAll c entries).pass.1.trans h) rfl

/-- An operation without a value for some name fails and binds nothing. -/
theorem run_bind_of_error {e : TemplateError}
    (h : Template.resolveFields c.peek entries = .error e) :
    (bind entries).run c = .done (.error (.template e), (c.pass (resolveAll entries)).2) := by
  rw [run, pass_resolveAll h]

theorem run_bind_of_ok {values : Mapping} (h : Template.resolveFields c.peek entries = .ok values) :
    (bind entries).run c =
      .done (.ok (), (c.pass (resolveAll entries)).2.bindAll values) := by
  rw [run, pass_resolveAll h]

/-- What binding the filled templates leaves behind, after one pass over all of them. -/
theorem assigns_bindAll (hnodup : (Entries.keys entries).Nodup)
    (h : ∀ e ∈ entries, ∀ name ∈ Template.names e.2, ∃ v, c.peek name = .ok v)
    {passed : Context} (honce : c.PulledOnce
      ((Template.referencesOfFields entries).filter c.generates) passed) :
    c.Assigns entries (passed.bindAll (Template.filledFields c.peeked entries)) := by
  have hmem (name : String) :
      name ∈ (Template.referencesOfFields entries).filter c.generates ↔ c.Pulls entries name := by
    rw [List.mem_filter, Template.mem_referencesOfFields, and_comm, Pulls]
    simp only [Template.mem_names]
  have hkeys : Entries.keys (Template.filledFields c.peeked entries) = Entries.keys entries := by
    rw [Template.filledFields_eq_map, Entries.keys_map]
  have hvariable (name : String) :
      (passed.bindAll (Template.filledFields c.peeked entries)).get? name =
        (Entries.get? name (Template.filledFields c.peeked entries)).or (c.get? name) := by
    rw [Context.get?, bindings_bindAll, Entries.get?_insertAll_of_nodup (by rwa [hkeys]),
      ← honce.sameVariables.bindings_eq]
    rfl
  constructor
  case known =>
    intro e he name hname
    exact peek_eq_ok_peeked (h e he name hname)
  case assigned =>
    intro e he
    refine ⟨Template.filled c.peeked e.2, (Template.substituted_iff _ _).mpr rfl, ?_⟩
    rw [hvariable, Template.filledFields_eq_map, Entries.get?_map,
      Entries.get?_of_mem hnodup he, Option.map_some, Option.some_or]
  case others =>
    intro name hname
    rw [hvariable, Entries.get?_eq_none (by rwa [hkeys]), Option.none_or]
  case pulled =>
    intro name hname
    rw [generators_bindAll]
    exact honce.advanced name ((hmem name).mpr hname)
  case unpulled =>
    intro name hname
    rw [generators_bindAll]
    exact honce.others name (mt (hmem name).mp hname)

/-- A bind operation fails and leaves the variables alone, or assigns; the names in its templates
tell which. -/
theorem exists_run_bind (hnodup : (Entries.keys entries).Nodup) (c : Context) :
    ∃ result after, (bind entries).run c = .done (result, after) ∧
      (result = .ok () ↔
        ∀ e ∈ entries, ∀ name ∈ Template.names e.2, ∃ v, c.peek name = .ok v) ∧
      (result = .ok () → c.Assigns entries after) ∧
      (result ≠ .ok () → c.SameVariables after) := by
  by_cases hall : ∀ e ∈ entries, ∀ name ∈ Template.names e.2, ∃ v, c.peek name = .ok v
  · have hvalues : Template.resolveFields c.peek entries =
        .ok (Template.filledFields c.peeked entries) := by
      refine Template.resolveFields_eq_ok_filled fun name hname => ?_
      obtain ⟨e, he, hmem⟩ := Template.mem_referencesOfFields.mp hname
      exact peek_eq_ok_peeked (hall e he name (Template.mem_names.mpr hmem))
    have honce := (foretold_resolveAll c entries).pass.2 _ hvalues
    exact ⟨_, _, run_bind_of_ok hvalues, ⟨fun _ => hall, fun _ => rfl⟩,
      fun _ => assigns_bindAll hnodup hall honce, fun hne => absurd rfl hne⟩
  · -- where a name has no value the templates cannot all be resolved
    cases hvalues : Template.resolveFields c.peek entries with
    | ok values => exact absurd (Template.forall_of_resolveFields hvalues) hall
    | error e =>
      exact ⟨_, _, run_bind_of_error hvalues,
        ⟨fun hok => (nomatch hok), fun h => absurd h hall⟩, fun hok => (nomatch hok),
        fun _ => c.sameVariables_pass (keepsVariables_resolveAll entries)⟩

/-- **Binding is one simultaneous assignment.**  The operation succeeds exactly when every name in
its templates has a value in the context before it.  Then it assigns, to all its names at once;
otherwise it leaves every variable as it was.  In any other order of its entries it does the same:
it fails or succeeds alike, and what it leaves behind agrees in every variable and every
generator. -/
theorem run_bind_assigns (hnodup : (Entries.keys entries).Nodup) (c : Context) :
    ∃ result after, (bind entries).run c = .done (result, after) ∧
      (result = .ok () ↔
        ∀ e ∈ entries, ∀ name ∈ Template.names e.2, ∃ v, c.peek name = .ok v) ∧
      (result = .ok () → c.Assigns entries after) ∧
      (result ≠ .ok () → c.SameVariables after) ∧
      ∀ entries', entries.Perm entries' → ∃ result' after',
        (bind entries').run c = .done (result', after') ∧ (result' = .ok () ↔ result = .ok ()) ∧
          (result = .ok () → ∀ name, after'.get? name = after.get? name ∧
            Entries.get? name after'.generators = Entries.get? name after.generators) := by
  obtain ⟨result, after, hrun, hiff, hok, herror⟩ := exists_run_bind hnodup c
  refine ⟨result, after, hrun, hiff, hok, herror, fun entries' hperm => ?_⟩
  have hnodup' : (Entries.keys entries').Nodup := (hperm.map Prod.fst).nodup_iff.mp hnodup
  obtain ⟨result', after', hrun', hiff', hok', -⟩ := exists_run_bind hnodup' c
  have hsame : result' = .ok () ↔ result = .ok () := by
    rw [hiff, hiff']
    simp only [hperm.mem_iff]
  exact ⟨result', after', hrun', hsame, fun h =>
    (hok h).unique ((hok' (hsame.mpr h)).perm hperm.symm)⟩

/-- Two numbers and a generator that counts. -/
def pair : Context where
  environment := []
  bindings := [("a", .int 1), ("b", .int 2)]
  generators := [("n", .sequence 5 1)]

/-- Entries that refer to each other's names, and one that takes the name of a generator. -/
def swapping : Mapping :=
  [("a", .string "{{b}}"), ("n", .string "{{n}}"), ("b", .string "{{a}}-{{n}}-{{n}}")]

/-- The numbers change places, and the generator is pulled once, in either order. -/
theorem run_bind_assigns_swapping :
    (Entries.keys swapping).Nodup ∧ ∃ after, (bind swapping).run pair = .done (.ok (), after) ∧
      pair.Assigns swapping after ∧
      after.bindings.map (fun e => (e.1, e.2.toText)) =
        [("a", "2"), ("b", "\"1-5-5\""), ("n", "5")] ∧
      ∃ after', (bind swapping.reverse).run pair = .done (.ok (), after') ∧
        ∀ name, after'.get? name = after.get? name ∧
          Entries.get? name after'.generators = Entries.get? name after.generators := by
  have hnodup : (Entries.keys swapping).Nodup := by decide
  have htexts : (match (bind swapping).run pair with
      | .done (.ok (), after) => after.bindings.map fun e => (e.1, e.2.toText)
      | _ => []) = [("a", "2"), ("b", "\"1-5-5\""), ("n", "5")] := by decide +kernel
  obtain ⟨result, after, hrun, -, hassigns, -, hperm⟩ := run_bind_assigns hnodup pair
  rw [hrun] at htexts
  cases result with
  | error e => cases htexts
  | ok u =>
    obtain ⟨result', after', hrun', hsame, hequal⟩ := hperm _ swapping.reverse_perm.symm
    rw [hsame.mpr rfl] at hrun'
    exact ⟨hnodup, after, hrun, hassigns rfl, htexts, after', hrun', hequal rfl⟩

end Operation

end HttpSuite
