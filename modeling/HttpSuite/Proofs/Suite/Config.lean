import HttpSuite.Proofs.Actions
import HttpSuite.Proofs.Context
import HttpSuite.Suite.Config

/-!
# Merging a node and applying its change

A configuration gives a context to the runs that start from it, and a configuration node gives a
change to the runs that have started already.  The two belong together: the context of the merged
configuration is the context of the configuration before it with the change applied
(`Config.apply_newContext`), down to the order of the variables.

Merging is about mappings, so the argument is one about entries.  `Config.Rebinds` says what a
field or a node does to the variables: it gives some names, and leaves the values of all others
alone.  That is closed under one field after another, and it is all that `touchedVariables` needs
to bring the earlier variables up to the later ones (`Config.Rebinds.insertAll_touched`).
-/

namespace HttpSuite

namespace Config

/-- No variable and no generator stands twice in a configuration. -/
structure DistinctNames (c : Config) : Prop where
  variableBinds : (Entries.keys c.variableBinds).Nodup
  generators : (Entries.keys c.generators).Nodup

/-! ## Names that a merge gives -/

/-- The variables `m'` come from `m` by giving some names: all others are as before. -/
structure Rebinds (m m' : Mapping) (names : List String) : Prop where
  keys_eq : Entries.keys m' = names.foldl Entries.addKey (Entries.keys m)
  get?_eq : ∀ k ∉ names, Entries.get? k m' = Entries.get? k m

namespace Rebinds

variable {m m' m'' : Mapping} {names names' : List String}

theorem refl (m : Mapping) : Rebinds m m [] := ⟨rfl, fun _ _ => rfl⟩

theorem trans (h : Rebinds m m' names) (h' : Rebinds m' m'' names') :
    Rebinds m m'' (names ++ names') := by
  refine ⟨?_, fun k hk => ?_⟩
  · rw [h'.keys_eq, h.keys_eq, List.foldl_append]
  · rw [List.mem_append, not_or] at hk
    rw [h'.get?_eq k hk.2, h.get?_eq k hk.1]

theorem insert (name : String) (v : Value) (m : Mapping) :
    Rebinds m (Entries.insert name v m) [name] := by
  refine ⟨Entries.keys_insert name v m, fun k hk => ?_⟩
  have hne : name ≠ k := fun h => hk (List.mem_singleton.mpr h.symm)
  rw [Entries.get?_insert, if_neg hne]

theorem nodup_keys (h : Rebinds m m' names) (hm : (Entries.keys m).Nodup) :
    (Entries.keys m').Nodup := by
  rw [h.keys_eq]
  exact Entries.nodup_foldl_addKey hm

/-- A merge gives the names of what is merged. -/
theorem mergeInto (source : List (String × Value)) (target : Mapping) :
    Rebinds target (Mapping.mergeInto source target) (Entries.keys source) := by
  induction source generalizing target with
  | nil => exact refl target
  | cons e rest ih =>
    obtain ⟨key, v⟩ := e
    rw [Mapping.mergeInto]
    exact (insert key _ target).trans (ih _)

theorem keys_filterMap {names : List String} {m : Mapping}
    (h : ∀ k ∈ names, k ∈ Entries.keys m) :
    Entries.keys (names.filterMap fun name => (Entries.get? name m).map fun v => (name, v)) =
      names := by
  induction names with
  | nil => rfl
  | cons n rest ih =>
    obtain ⟨v, hv⟩ := Entries.exists_get?_of_mem (h n (List.mem_cons_self ..))
    rw [List.filterMap_cons, hv]
    exact congrArg (n :: ·) (ih fun k hk => h k (List.mem_cons_of_mem _ hk))

/-- Every name that is given has a value. -/
theorem mem_keys (h : Rebinds m m' names) {k : String} (hk : k ∈ names) :
    k ∈ Entries.keys m' := by
  rw [h.keys_eq]
  exact Entries.mem_foldl_addKey.mpr (.inr hk)

theorem keys_touched {c : Config} (h : Rebinds m c.variableBinds names) :
    Entries.keys (c.touchedVariables names) = names.foldl Entries.addKey [] := by
  rw [touchedVariables, Entries.keys_ofList, keys_filterMap fun _ hk => h.mem_keys hk]

/-- Wherever the touched variables are bound, the names that are given have their values in the
configuration afterwards, and all others are as before. -/
theorem get?_insertAll_touched {c : Config} (h : Rebinds m c.variableBinds names) (l : Mapping)
    (k : String) : Entries.get? k (Entries.insertAll l (c.touchedVariables names)) =
      if k ∈ names then Entries.get? k c.variableBinds else Entries.get? k l := by
  have htable : ∀ e ∈ c.touchedVariables names,
      Entries.get? e.1 c.variableBinds = some e.2 := by
    refine Entries.get?_of_mem_ofList (fun k => Entries.get? k c.variableBinds) fun e he => ?_
    obtain ⟨name, -, hname⟩ := List.mem_filterMap.mp he
    obtain ⟨v, hv, rfl⟩ := Option.map_eq_some_iff.mp hname
    exact hv
  rw [Entries.get?_insertAll (fun k => Entries.get? k c.variableBinds) htable, h.keys_touched]
  exact if_congr Entries.mem_foldl_addKey_nil rfl rfl

/-- **The touched variables make up for the merge.** -/
theorem insertAll_touched {c : Config} (h : Rebinds m c.variableBinds names)
    (hm : (Entries.keys m).Nodup) :
    Entries.insertAll m (c.touchedVariables names) = c.variableBinds := by
  refine Entries.ext (Entries.nodup_keys_insertAll hm _) (h.nodup_keys hm) ?_ fun k => ?_
  · rw [Entries.keys_insertAll, h.keys_touched, Entries.foldl_addKey_foldl_addKey, h.keys_eq]
    rfl
  · rw [h.get?_insertAll_touched]
    by_cases hk : k ∈ names
    · rw [if_pos hk]
    · rw [if_neg hk, h.get?_eq k hk]

end Rebinds

/-! ## Fields and generators of a node -/

/-- The names of the variables that a field of a node binds. -/
def boundBy (key : String) (v : Value) : List String :=
  match key with
  | "variable_binds" => Entries.keys ((Fields.ofValue v "variable_binds").toOption.getD [])
  | "default_base_url" => [Test.baseUrlVariable]
  | _ => []

/-- The fields of a node, their keys in small letters. -/
def fieldsOf (node : Value) : Mapping := (Fields.lowered node "config").toOption.getD []

/-- The names of the variables that a node binds. -/
def boundNames (node : Value) : List String := (fieldsOf node).flatMap fun f => boundBy f.1 f.2

/-- The generators that a node declares, by name. -/
def declarations (node : Value) : Mapping :=
  match Entries.get? "generators" (fieldsOf node) with
  | some v => (Fields.ofValue v "generators").toOption.getD []
  | none => []

theorem rebinds_setField {c c' : Config} {key : String} {v : Value} {names : List String}
    (h : c.setField key v = .ok (c', names)) :
    names = boundBy key v ∧ Rebinds c.variableBinds c'.variableBinds names ∧
      c'.generators = c.generators := by
  unfold setField at h
  split at h
  -- Nine fields set something else.
  iterate 9
    · obtain ⟨a, -, ha⟩ := Except.eq_ok_of_bind h
      cases ha
      exact ⟨rfl, .refl _, rfl⟩
  · obtain ⟨binds, hbinds, hb⟩ := Except.eq_ok_of_bind h
    cases hb
    refine ⟨?_, .mergeInto binds _, rfl⟩
    change _ = Entries.keys ((Fields.ofValue v "variable_binds").toOption.getD [])
    rw [hbinds]
    rfl
  · cases h
    exact ⟨rfl, .insert _ _ _, rfl⟩
  · cases h
    exact ⟨rfl, .refl _, rfl⟩
  · cases h

theorem rebinds_setFields {c c' : Config} {touched names : List String} {fields : Mapping}
    (h : c.setFields touched fields = (.ok names, c')) :
    names = touched ++ fields.flatMap (fun f => boundBy f.1 f.2) ∧
      Rebinds c.variableBinds c'.variableBinds (fields.flatMap fun f => boundBy f.1 f.2) ∧
        c'.generators = c.generators := by
  induction fields generalizing c touched with
  | nil =>
    cases h
    exact ⟨(List.append_nil _).symm, .refl _, rfl⟩
  | cons field rest ih =>
    obtain ⟨key, v⟩ := field
    rw [setFields] at h
    cases hf : c.setField key v with
    | error e =>
      rw [hf] at h
      cases h
    | ok r =>
      obtain ⟨c₁, first⟩ := r
      rw [hf] at h
      obtain ⟨rfl, hhead, hgens⟩ := rebinds_setField hf
      obtain ⟨rfl, htail, hgens'⟩ := ih h
      exact ⟨List.append_assoc .., hhead.trans htail, hgens'.trans hgens⟩

/-- The generators that fields declare, by name. -/
def declarationsOf (fields : Mapping) : Except CompileError Mapping :=
  match Entries.get? "generators" fields with
  | some v => Fields.ofValue v "generators"
  | none => .ok []

theorem setGenerators_eq_ok_iff {r : Registry} {c c' : Config} {declarations : Mapping}
    {declared gs : List (String × Generator)} :
    setGenerators r c declared declarations = (.ok gs, c') ↔
      ∃ new, gs = declared ++ new ∧
        c' = { c with generators := Entries.insertAll c.generators new } ∧
        List.Forall₂ (fun d e => e.1 = d.1 ∧ generatorOf r c d.1 d.2 = .ok e.2)
          declarations new := by
  induction declarations generalizing c declared with
  | nil =>
    constructor
    · intro h
      cases h
      exact ⟨[], (List.append_nil _).symm, rfl, .nil⟩
    · rintro ⟨new, rfl, rfl, hnew⟩
      cases hnew
      rw [setGenerators, List.append_nil]
      rfl
  | cons e rest ih =>
    obtain ⟨name, declaration⟩ := e
    rw [setGenerators]
    cases hg : generatorOf r c name declaration with
    | error e =>
      constructor
      · intro h
        cases h
      · rintro ⟨new, -, -, hnew⟩
        cases hnew with
        | cons hfirst _ =>
          rw [hg] at hfirst
          cases hfirst.2
    | ok g =>
      dsimp only
      rw [ih]
      -- what is declared later does not see the generators, so it is the same from `c`
      constructor
      · rintro ⟨new, rfl, rfl, hrest⟩
        exact ⟨(name, g) :: new, List.append_assoc .., rfl, .cons ⟨rfl, hg⟩ hrest⟩
      · rintro ⟨new, rfl, rfl, hnew⟩
        cases hnew with
        | @cons _ e _ new hfirst hrest =>
          obtain ⟨_, g'⟩ := e
          obtain ⟨rfl, hg'⟩ := hfirst
          cases hg.symm.trans hg'
          exact ⟨new, List.append_cons .., rfl, hrest⟩

/-- **A merge is two phases.**  The fields of the node are set first, and then its generators are
declared, with what the fields have bound. -/
theorem merge_eq_ok_iff {r : Registry} {c c' : Config} {node : Value} {change : Change}
    {fields : Mapping} (hfields : Fields.lowered node "config" = .ok fields) :
    c.merge r node = (.ok change, c') ↔
      ∃ names c₁ declarations, c.setFields [] fields = (.ok names, c₁) ∧
        declarationsOf fields = .ok declarations ∧
        List.Forall₂ (fun d e => e.1 = d.1 ∧ generatorOf r c₁ d.1 d.2 = .ok e.2)
          declarations change.generators ∧
        change.bindings = c₁.touchedVariables names ∧
        c' = { c₁ with generators := Entries.insertAll c₁.generators change.generators } := by
  obtain ⟨bindings, gs⟩ := change
  unfold merge declarationsOf
  rw [hfields]
  dsimp only
  rcases hset : c.setFields [] fields with ⟨e | names, c₁⟩
  · simp
  dsimp only
  cases Entries.get? "generators" fields with
  | none =>
    constructor
    · intro h
      cases h
      exact ⟨names, _, [], rfl, rfl, .nil, rfl, rfl⟩
    · rintro ⟨_, _, _, hset, hdeclarations, hdeclared, rfl, rfl⟩
      cases hset
      cases hdeclarations
      cases hdeclared
      rfl
  | some v =>
    dsimp only
    cases Fields.ofValue v "generators" with
    | error e => simp
    | ok declarations =>
      dsimp only
      constructor
      · intro h
        rcases hd : setGenerators r c₁ [] declarations with ⟨e | declared, c₂⟩ <;> rw [hd] at h
        · cases h
        · cases h
          obtain ⟨new, rfl, rfl, hnew⟩ := setGenerators_eq_ok_iff.mp hd
          exact ⟨names, c₁, declarations, rfl, rfl, hnew, rfl, rfl⟩
      · rintro ⟨_, _, _, hset, hdeclarations, hdeclared, rfl, rfl⟩
        cases hset
        cases hdeclarations
        rw [setGenerators_eq_ok_iff.mpr ⟨gs, rfl, rfl, hdeclared⟩]
        rfl

theorem declarations_eq {node : Value} {fields : Mapping}
    (hfields : Fields.lowered node "config" = .ok fields) :
    declarations node = (declarationsOf fields).toOption.getD [] := by
  have hnode : fieldsOf node = fields := by
    rw [fieldsOf, hfields]
    rfl
  rw [declarations, declarationsOf, hnode]
  cases Entries.get? "generators" fields <;> rfl

/-- What a merge does: the names that the node binds are given, the change holds their variables,
and the generators of the change, which are those that the node declares, are put among those there
are. -/
theorem merge_spec {r : Registry} {c c' : Config} {node : Value} {change : Change}
    (h : c.merge r node = (.ok change, c')) :
    Rebinds c.variableBinds c'.variableBinds (boundNames node) ∧
      change.bindings = c'.touchedVariables (boundNames node) ∧
      c'.generators = Entries.insertAll c.generators change.generators ∧
      List.Forall₂ (fun d e => e.1 = d.1 ∧ generatorOf r c' d.1 d.2 = .ok e.2)
        (declarations node) change.generators := by
  cases hl : Fields.lowered node "config" with
  | error e =>
    unfold merge at h
    rw [hl] at h
    cases h
  | ok fields =>
    obtain ⟨names, c₁, ds, hset, hds, hdeclared, hbindings, rfl⟩ := (merge_eq_ok_iff hl).mp h
    obtain ⟨rfl, hrebinds, hgens⟩ := rebinds_setFields hset
    rw [boundNames, declarations_eq hl, hds, fieldsOf, hl]
    exact ⟨hrebinds, hbindings, congrArg (Entries.insertAll · change.generators) hgens, hdeclared⟩

/-! ## The context of a configuration -/

variable {c : Config} {env : Environment}

theorem bindings_newContext (h : c.DistinctNames) :
    (c.newContext env).bindings = c.variableBinds := by
  rw [newContext, Context.bindings_addGenerators, Context.bindings_bindAll]
  exact Entries.ofList_eq_self h.variableBinds

theorem generators_newContext (h : c.DistinctNames) :
    (c.newContext env).generators = c.generators.map fun e => (e.1, e.2.start) := by
  rw [newContext, Context.generators_addGenerators, Context.generators_bindAll]
  refine Entries.ofList_eq_self ?_
  rw [Entries.keys_map]
  exact h.generators

theorem environment_newContext : (c.newContext env).environment = env := by
  rw [newContext, Context.environment_addGenerators, Context.environment_bindAll]
  rfl

/-- Merging keeps the names distinct. -/
theorem DistinctNames.merge {r : Registry} {c' : Config} {node : Value} {change : Change}
    (hc : c.DistinctNames) (h : c.merge r node = (.ok change, c')) : c'.DistinctNames := by
  obtain ⟨hrebinds, -, hgens, -⟩ := merge_spec h
  refine ⟨hrebinds.nodup_keys hc.variableBinds, ?_⟩
  rw [hgens]
  exact Entries.nodup_keys_insertAll hc.generators _

/-- **The context of a merged configuration** is the one before it with the change applied. -/
theorem apply_newContext {r : Registry} {c' : Config} {node : Value} {change : Change}
    (hc : c.DistinctNames) (h : c.merge r node = (.ok change, c')) :
    change.apply (c.newContext env) = c'.newContext env := by
  have hc' := hc.merge h
  obtain ⟨hrebinds, hbindings, hgens, -⟩ := merge_spec h
  have hb : (change.apply (c.newContext env)).bindings = (c'.newContext env).bindings := by
    rw [Change.apply, Context.bindings_addGenerators, Context.bindings_bindAll,
      bindings_newContext hc, bindings_newContext hc', hbindings]
    exact hrebinds.insertAll_touched hc.variableBinds
  have hg : (change.apply (c.newContext env)).generators = (c'.newContext env).generators := by
    rw [Change.apply, Context.generators_addGenerators, Context.generators_bindAll,
      generators_newContext hc, generators_newContext hc', hgens, Entries.map_insertAll]
  have he : (change.apply (c.newContext env)).environment = (c'.newContext env).environment := by
    rw [Change.apply, Context.environment_addGenerators, Context.environment_bindAll,
      environment_newContext, environment_newContext]
  exact Context.ext he hb hg

/-- A change that holds nothing changes nothing. -/
theorem Change.apply_of_isEmpty {change : Change} (h : change.isEmpty = true)
    (context : Context) : change.apply context = context := by
  rw [isEmpty, Bool.and_eq_true, List.isEmpty_iff, List.isEmpty_iff] at h
  rw [apply, h.1, h.2]
  rfl

end Config

end HttpSuite
