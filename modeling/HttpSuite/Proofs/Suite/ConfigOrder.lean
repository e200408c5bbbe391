import HttpSuite.Proofs.Document.Fields
import HttpSuite.Proofs.Suite.Change
import HttpSuite.Proofs.Suite.Merge
import HttpSuite.Proofs.Template

/-!
# A configuration node in any order

A configuration node is merged field after field, and then its generators are declared.  So what
comes of it could depend on the order of its fields in two ways, and does so in neither.

* A field could undo or read what another one has set.  But every field has slots of its own, and
  the two that bind variables can only meet at the name of the base address: as long as
  `variable_binds` leaves it to `default_base_url`, each slot of the configuration is set by one
  field (`Config.isSetBy_slots`).
* The generators read the variables.  But they are declared when all fields have been set, and read
  the variables by name (`Config.generatorOf_congr`).

What is left of the order is that of the variables (`Config.SameMerge`).
-/

namespace HttpSuite.Config

/-! ## The slots of a configuration -/

/-- The configuration with one more field of a node, without the names that the field binds. -/
def setOnly (c : Config) (key : String) (v : Value) : Except CompileError Config :=
  (c.setField key v).map Prod.fst

/-- The variables of a field leave the base address to the field that is there for it. -/
def SparesBase (key : String) (v : Value) : Prop :=
  key = "variable_binds" → ∀ binds, Fields.ofValue v "variable_binds" = .ok binds →
    Test.baseUrlVariable ∉ Entries.keys binds

def flagSlot (key : String) (get : Config → Bool) : Slot Config :=
  ⟨Bool, [key], get, fun v _ => flagOf key v⟩

def variableSlot (name : String) : Slot Config where
  α := Option Value
  keys := ["variable_binds"]
  get c := Entries.get? name c.variableBinds
  update v old := (Fields.ofValue v "variable_binds").map fun binds =>
    ((Entries.get? name binds).map (Mapping.overlayValue · old)).or old

def baseSlot : Slot Config where
  α := Option Value
  keys := ["default_base_url"]
  get c := Entries.get? Test.baseUrlVariable c.variableBinds
  update v _ := .ok (some (.string v.render))

/-- The slots of a configuration, with those of one variable and of the base address. -/
def slots (name : String) : List (Slot Config) :=
  [⟨Duration, ["timeout"], Config.timeout, fun v _ => timeoutOf v⟩,
    ⟨Nat, ["retries"], Config.retries, fun v _ => retriesOf v⟩,
    flagSlot "print_bodies" Config.printBodies,
    flagSlot "print_headers" Config.printHeaders,
    flagSlot "ssl_insecure" Config.sslInsecure,
    flagSlot "verbose" Config.verbose,
    flagSlot "skip_term_colors" Config.skipTermColors,
    flagSlot "test_parallel" Config.testParallel,
    flagSlot "interactive" Config.interactive,
    ⟨List (String × Generator), ["generators"], Config.generators, fun _ gs => .ok gs⟩,
    variableSlot name, baseSlot]

variable {r : Registry} {c c' c₁ c₂ : Config} {node node' : Value} {fields fields' : Mapping}
  {change : Change}

/-- What a field does: it updates the slots that it belongs to and leaves the others alone, whatever
the configuration is that it is set on. -/
theorem setOnly_spec {key : String} {v : Value} (hset : c.setOnly key v = .ok c') :
    (SparesBase key v → ∀ name ≠ Test.baseUrlVariable, ∀ f ∈ slots name,
      if key ∈ f.keys then f.update v (f.get c) = .ok (f.get c') else f.get c' = f.get c) ∧
    ∀ d : Config, ∃ d', d.setOnly key v = .ok d' := by
  obtain ⟨⟨c', names⟩, h, rfl⟩ := Except.eq_ok_of_map hset
  clear hset
  unfold setOnly
  unfold setField at h ⊢
  -- the cases are those of the key; nine fields set something else than variables
  split at h
  iterate 9
    · obtain ⟨a, ha, hc⟩ := Except.eq_ok_of_bind h
      cases hc
      refine ⟨fun _ name _ => ?_, fun d => ?_⟩
      · simp [slots, flagSlot, variableSlot, baseSlot, ha]
      · dsimp only
        rw [ha]
        exact ⟨_, rfl⟩
  · obtain ⟨binds, hbinds, hc⟩ := Except.eq_ok_of_bind h
    cases hc
    refine ⟨fun hspares name hname => ?_, fun d => ?_⟩
    · have hget := Mapping.get?_merge (Fields.nodup_keys_of_ofValue hbinds) c.variableBinds
      have hbase := Entries.get?_eq_none (hspares rfl binds hbinds)
      simp [slots, flagSlot, variableSlot, baseSlot, Except.map, hbinds, hget, hbase]
    · rw [hbinds]
      exact ⟨_, rfl⟩
  · cases h
    refine ⟨fun _ name hname => ?_, fun d => ⟨_, rfl⟩⟩
    simp [slots, flagSlot, variableSlot, baseSlot, Entries.get?_insert, hname.symm]
  · cases h
    refine ⟨fun _ name _ => ?_, fun d => ⟨_, rfl⟩⟩
    simp [slots, flagSlot, variableSlot, baseSlot]
  · cases h

/-- **Every slot is set by one field.** -/
theorem isSetBy_slots {name : String} (hname : name ≠ Test.baseUrlVariable) :
    ∀ f ∈ slots name, f.IsSetBy setOnly SparesBase :=
  fun f hf _ _ _ _ hspares h => (setOnly_spec h).1 hspares name hname f hf

theorem exists_key_slots (name : String) : ∀ f ∈ slots name, ∃ key, f.keys = [key] := by
  simp [slots, flagSlot, variableSlot, baseSlot]

theorem steady_setOnly : Slot.Steady setOnly := fun _ d _ _ _ h => (setOnly_spec h).2 d

/-- Setting the fields of a node is setting one after the other, and the names that they bind can be
read off them. -/
theorem setFields_eq_ok_iff {touched names : List String} :
    c.setFields touched fields = (.ok names, c') ↔
      fields.foldlM (fun c e => c.setOnly e.1 e.2) c = .ok c' ∧
        names = touched ++ fields.flatMap (fun f => boundBy f.1 f.2) := by
  induction fields generalizing c touched with
  | nil =>
    rw [setFields, List.foldlM_nil, List.flatMap_nil, List.append_nil, Prod.mk.injEq,
      Except.ok.injEq, and_comm, eq_comm (a := touched)]
    exact and_congr_left fun _ => ⟨fun h => h ▸ rfl, fun h => by cases h; rfl⟩
  | cons field rest ih =>
    obtain ⟨key, v⟩ := field
    rw [setFields, List.foldlM_cons]
    cases hf : c.setField key v with
    | error e =>
      have hset : c.setOnly key v = .error e := by
        rw [setOnly, hf]
        rfl
      simp only [hset]
      simp [bind, Except.bind]
    | ok r =>
      obtain ⟨c₁, first⟩ := r
      obtain ⟨rfl, -, -⟩ := rebinds_setField hf
      have hset : c.setOnly key v = .ok c₁ := by
        rw [setOnly, hf]
        rfl
      simp only [hset]
      rw [ih, List.flatMap_cons, List.append_assoc]
      rfl

/-! ## Variables -/

theorem get?_eq_of_slots
    (h : ∀ name ≠ Test.baseUrlVariable, ∀ f ∈ slots name, f.get c₁ = f.get c₂) (k : String) :
    Entries.get? k c₁.variableBinds = Entries.get? k c₂.variableBinds := by
  by_cases hk : k = Test.baseUrlVariable
  · subst hk
    exact h "" (by decide) baseSlot (by simp [slots])
  · exact h k hk (variableSlot k) (by simp [slots])

theorem eq_of_slots {name : String} (h : ∀ f ∈ slots name, f.get c₁ = f.get c₂) :
    { c₁ with variableBinds := c₂.variableBinds } = c₂ := by
  simp only [slots, flagSlot, List.forall_mem_cons] at h
  obtain ⟨htimeout, hretries, hbodies, hheaders, hssl, hverbose, hcolors, hparallel, hinteractive,
    hgenerators, -⟩ := h
  cases c₁
  cases c₂
  congr

theorem get?_touchedVariables {m : Mapping} {names : List String}
    (h : Rebinds m c.variableBinds names) (k : String) :
    Entries.get? k (c.touchedVariables names) =
      if k ∈ names then Entries.get? k c.variableBinds else none := by
  have hall : Entries.insertAll [] (c.touchedVariables names) = c.touchedVariables names :=
    Entries.ofList_eq_self (Entries.nodup_keys_ofList _)
  rw [← hall, h.get?_insertAll_touched]
  rfl

/-- What was touched depends on the order of the names in its order only. -/
theorem touchedVariables_perm {m : Mapping} {names names' : List String}
    (h : Rebinds m c₁.variableBinds names) (h' : Rebinds m c₂.variableBinds names')
    (hnames : names.Perm names')
    (hget : ∀ k, Entries.get? k c₁.variableBinds = Entries.get? k c₂.variableBinds) :
    (c₁.touchedVariables names).Perm (c₂.touchedVariables names') := by
  refine Entries.perm_of_get? (Entries.nodup_keys_ofList _) (Entries.nodup_keys_ofList _)
    fun k => ?_
  rw [get?_touchedVariables h, get?_touchedVariables h', hget]
  exact if_congr hnames.mem_iff rfl rfl

/-- A generator reads the variables by name. -/
theorem generatorOf_congr (r : Registry)
    (h : ∀ k, Entries.get? k c₁.variableBinds = Entries.get? k c₂.variableBinds)
    (name : String) (declaration : Value) :
    generatorOf r c₁ name declaration = generatorOf r c₂ name declaration := by
  have hresolve (v : Value) :
      ({ Context.empty [] with bindings := c₁.variableBinds }).resolveBound v =
        ({ Context.empty [] with bindings := c₂.variableBinds }).resolveBound v := by
    refine Template.resolve_congr fun name _ => ?_
    rw [Context.lookupBound, Context.lookupBound, Context.get?, Context.get?, h]
  unfold generatorOf Registry.declareGenerator GeneratorKind.declare
  simp only [hresolve]

theorem declarationsOf_perm (hnodup : (Entries.keys fields).Nodup) (hperm : fields.Perm fields') :
    declarationsOf fields = declarationsOf fields' := by
  rw [declarationsOf, declarationsOf, Entries.get?_perm hnodup hperm]

/-! ## Merging -/

/-- Two merges with one outcome: both fail, or they give the same change and configuration up to the
order of the variables. -/
inductive SameMerge :
    Except CompileError Change × Config → Except CompileError Change × Config → Prop where
  | failed (e e' : CompileError) (c c' : Config) : SameMerge (.error e, c) (.error e', c')
  | merged {change change' : Change} {c c' : Config}
      (bindings : change.bindings.Perm change'.bindings)
      (generators : change.generators = change'.generators)
      (variableBinds : c.variableBinds.Perm c'.variableBinds)
      (others : { c with variableBinds := c'.variableBinds } = c') :
      SameMerge (.ok change, c) (.ok change', c')

/-- The generators of a node were declared with all that the node binds in place. -/
structure Informed (r : Registry) (c : Config) (node : Value) (fields : Mapping)
    (change : Change) (merged : Config) : Prop where
  bound : ∀ v binds, ("variable_binds", v) ∈ fields →
    Fields.ofValue v "variable_binds" = .ok binds → ∀ name w, Entries.get? name binds = some w →
      Entries.get? name merged.variableBinds =
        some (Mapping.overlayValue w (Entries.get? name c.variableBinds))
  base : ∀ v, ("default_base_url", v) ∈ fields →
    Entries.get? Test.baseUrlVariable merged.variableBinds = some (.string v.render)
  declared : ∀ d ∈ declarations node, ∃ g, generatorOf r merged d.1 d.2 = .ok g ∧
    Entries.get? d.1 change.generators = some g

/-- Fields set in another order leave the same configuration, up to the order of the variables. -/
theorem exists_foldlM_of_perm (hperm : fields.Perm fields') (hnodup : (Entries.keys fields).Nodup)
    (hbase : ∀ e ∈ fields, SparesBase e.1 e.2)
    (hrun : fields.foldlM (fun c e => c.setOnly e.1 e.2) c = .ok c₁) :
    ∃ c₂, fields'.foldlM (fun c e => c.setOnly e.1 e.2) c = .ok c₂ ∧
      (∀ k, Entries.get? k c₁.variableBinds = Entries.get? k c₂.variableBinds) ∧
      { c₁ with variableBinds := c₂.variableBinds } = c₂ := by
  obtain ⟨c₂, hrun'⟩ := Slot.exists_foldlM_of_perm steady_setOnly hperm hrun
  have hslots : ∀ name ≠ Test.baseUrlVariable, ∀ f ∈ slots name, f.get c₁ = f.get c₂ := by
    intro name hname f hf
    obtain ⟨key, hkey⟩ := exists_key_slots name f hf
    exact Slot.get_eq_of_own (isSetBy_slots hname f hf) hbase
      (fun e he => hbase e (hperm.mem_iff.mpr he)) (Slot.own_perm hkey hnodup hperm) hrun hrun'
  exact ⟨c₂, hrun', get?_eq_of_slots hslots, eq_of_slots (hslots "" (by decide))⟩

/-- Where one merge succeeds, so does one with the fields in another order. -/
theorem exists_merge_of_perm (hc : c.DistinctNames)
    (hfields : Fields.lowered node "config" = .ok fields)
    (hfields' : Fields.lowered node' "config" = .ok fields') (hperm : fields.Perm fields')
    (hnodup : (Entries.keys fields).Nodup) (hbase : ∀ e ∈ fields, SparesBase e.1 e.2)
    (h : c.merge r node = (.ok change, c')) :
    ∃ change' c'', c.merge r node' = (.ok change', c'') ∧
      SameMerge (.ok change, c') (.ok change', c'') := by
  obtain ⟨names, c₁, ds, hset, hds, hdeclared, hbindings, rfl⟩ := (merge_eq_ok_iff hfields).mp h
  obtain ⟨hrun, rfl⟩ := setFields_eq_ok_iff.mp hset
  obtain ⟨c₂, hrun', hget, hothers⟩ := exists_foldlM_of_perm hperm hnodup hbase hrun
  have hset' : c.setFields [] fields' = (.ok (fields'.flatMap fun f => boundBy f.1 f.2), c₂) :=
    setFields_eq_ok_iff.mpr ⟨hrun', (List.nil_append _).symm⟩
  obtain ⟨-, hrebinds, -⟩ := rebinds_setFields hset
  obtain ⟨-, hrebinds', -⟩ := rebinds_setFields hset'
  -- the second phase finds the variables that the first one found
  have hdeclared' : List.Forall₂ (fun d e => e.1 = d.1 ∧ generatorOf r c₂ d.1 d.2 = .ok e.2) ds
      change.generators :=
    hdeclared.imp fun d e hd => ⟨hd.1, (generatorOf_congr r hget d.1 d.2).symm.trans hd.2⟩
  refine ⟨⟨c₂.touchedVariables _, change.generators⟩, _, (merge_eq_ok_iff hfields').mpr
    ⟨_, c₂, ds, hset', declarationsOf_perm hnodup hperm ▸ hds, hdeclared', rfl, rfl⟩,
    .merged ?_ rfl ?_ ?_⟩
  · rw [hbindings]
    exact touchedVariables_perm hrebinds hrebinds' (hperm.flatMap_right _) hget
  · exact Entries.perm_of_get? (hrebinds.nodup_keys hc.variableBinds)
      (hrebinds'.nodup_keys hc.variableBinds) hget
  · rw [← hothers]

/-- What the fields of a node bind is in place when its generators are declared. -/
theorem informed_of_merge (hfields : Fields.lowered node "config" = .ok fields)
    (hnodup : (Entries.keys fields).Nodup) (hbase : ∀ e ∈ fields, SparesBase e.1 e.2)
    (h : c.merge r node = (.ok change, c')) : Informed r c node fields change c' := by
  obtain ⟨names, c₁, ds, hset, -, -, -, rfl⟩ := (merge_eq_ok_iff hfields).mp h
  obtain ⟨hrun, -⟩ := setFields_eq_ok_iff.mp hset
  have hslot {name key : String} (hname : name ≠ Test.baseUrlVariable) {f : Slot Config}
      (hf : f ∈ slots name) (hkeys : f.keys = [key]) {v : Value} (hv : (key, v) ∈ fields) :
      f.update v (f.get c) = .ok (f.get c₁) :=
    Slot.update_of_mem (isSetBy_slots hname f hf) hbase hkeys hnodup hv hrun
  constructor
  case bound =>
    intro v binds hv hbinds name w hw
    have hname : name ≠ Test.baseUrlVariable := by
      rintro rfl
      have hnot := Entries.get?_eq_none (hbase _ hv rfl binds hbinds)
      rw [hw] at hnot
      cases hnot
    have hupdate := hslot hname (f := variableSlot name) (by simp [slots]) rfl hv
    simp only [variableSlot, hbinds, Except.map, hw] at hupdate
    exact (Except.ok.inj hupdate).symm
  case base =>
    intro v hv
    have hname : "" ≠ Test.baseUrlVariable := by decide
    have hupdate := hslot hname (f := baseSlot) (by simp [slots]) rfl hv
    exact (Except.ok.inj hupdate).symm
  case declared => exact fun d hd => exists_generator_of_merge h hd

/-- **A configuration node says the same in any order.**  However its fields are arranged, as a
mapping or as a list of mappings and with keys in any letter case, the merge fails or it does not;
and if it does not, the change and the merged configuration are the same up to the order of the
variables.  The generators of the node see everything that it binds, wherever they stand. -/
theorem merge_perm (hc : c.DistinctNames) (hnode : Fields.Declares node fields)
    (hnode' : Fields.Declares node' fields') (hperm : fields.Perm fields')
    (hnodup : (Entries.keys fields).Nodup) (hbase : ∀ e ∈ fields, SparesBase e.1 e.2)
    (r : Registry) :
    SameMerge (c.merge r node) (c.merge r node') ∧
      ∀ change merged, c.merge r node = (.ok change, merged) →
        Informed r c node fields change merged := by
  have hnodup' : (Entries.keys fields').Nodup := (hperm.map Prod.fst).nodup_iff.mp hnodup
  have hfields := hnode.lowered_eq hnodup "config"
  have hfields' := hnode'.lowered_eq hnodup' "config"
  refine ⟨?_, fun change merged h => informed_of_merge hfields hnodup hbase h⟩
  rcases h : c.merge r node with ⟨e | change, c₁⟩
  · rcases h' : c.merge r node' with ⟨e' | change', c₂⟩
    · exact .failed e e' c₁ c₂
    · -- the other order cannot succeed alone
      have hbase' : ∀ e ∈ fields', SparesBase e.1 e.2 :=
        fun e he => hbase e (hperm.mem_iff.mpr he)
      obtain ⟨_, _, hmerge, -⟩ :=
        exists_merge_of_perm hc hfields' hfields hperm.symm hnodup' hbase' h'
      rw [h] at hmerge
      cases hmerge
  · obtain ⟨change', c₂, hmerge, hsame⟩ :=
      exists_merge_of_perm hc hfields hfields' hperm hnodup hbase h
    rw [hmerge]
    exact hsame

/-- The fields of `enrolmentNode`. -/
def enrolmentFields : Mapping :=
  [("generators", .object [("ids", .object [("type", .string "number_sequence"),
      ("start", .string "{{first}}")])]),
    ("variable_binds", .object [("user", .object [("role", .string "admin")]), ("first", .int 7)]),
    ("default_base_url", .string "http://h")]

/-- The same fields as a mapping, the other way round and in other letters. -/
def enrolmentMapping : Value :=
  .object [("DEFAULT_BASE_URL", .string "http://h"),
    ("variable_binds", .object [("user", .object [("role", .string "admin")]), ("first", .int 7)]),
    ("Generators", .object [("ids", .object [("type", .string "number_sequence"),
      ("start", .string "{{first}}")])])]

theorem declares_enrolmentNode : Fields.Declares enrolmentNode enrolmentFields := by
  have hkeys : lower "generators" = "generators" ∧ lower "Variable_Binds" = "variable_binds" ∧
      lower "default_base_url" = "default_base_url" := by decide
  have hdeclares := Fields.Declares.list [[("generators", enrolmentFields[0].2)],
    [("Variable_Binds", enrolmentFields[1].2)], [("default_base_url", enrolmentFields[2].2)]]
  simp only [Fields.lowerKeys, List.flatten_cons, List.flatten_nil, List.cons_append,
    List.nil_append, List.map_cons, List.map_nil, hkeys] at hdeclares
  exact hdeclares

theorem declares_enrolmentMapping :
    Fields.Declares enrolmentMapping enrolmentFields.reverse := by
  have hkeys : lower "DEFAULT_BASE_URL" = "default_base_url" ∧
      lower "variable_binds" = "variable_binds" ∧ lower "Generators" = "generators" := by decide
  have hdeclares := Fields.Declares.mapping [("DEFAULT_BASE_URL", enrolmentFields[2].2),
    ("variable_binds", enrolmentFields[1].2), ("Generators", enrolmentFields[0].2)]
  simp only [Fields.lowerKeys, List.map_cons, List.map_nil, hkeys] at hdeclares
  exact hdeclares

theorem sparesBase_enrolmentFields : ∀ e ∈ enrolmentFields, SparesBase e.1 e.2 := by
  rintro ⟨_, v⟩ he rfl binds hbinds
  have hvalue : Entries.get? "variable_binds" enrolmentFields = some v :=
    Entries.get?_of_mem (by decide) he
  cases hvalue
  cases hbinds
  decide

/-- The generator stands first in the list and last in the mapping, and in both it counts from the
number that the node binds. -/
theorem merge_perm_enrolment :
    SameMerge (enrolment.merge .builtins enrolmentNode)
        (enrolment.merge .builtins enrolmentMapping) ∧
      ∃ change merged, enrolment.merge .builtins enrolmentNode = (.ok change, merged) ∧
        Informed .builtins enrolment enrolmentNode enrolmentFields change merged ∧
        change.generators.map (fun e => (e.1, (e.2.start.pull []).1.toOption.map Value.toText)) =
          [("ids", some "7")] := by
  have hdistinct : enrolment.DistinctNames := ⟨by decide, by decide⟩
  obtain ⟨hsame, hinformed⟩ := merge_perm hdistinct declares_enrolmentNode
    declares_enrolmentMapping (List.reverse_perm _).symm (by decide) sparesBase_enrolmentFields
    .builtins
  have hchange : (enrolment.merge .builtins enrolmentNode).1.toOption.map (fun change =>
      change.generators.map fun e => (e.1, (e.2.start.pull []).1.toOption.map Value.toText)) =
      some [("ids", some "7")] := by decide +kernel
  refine ⟨hsame, ?_⟩
  rcases hmerge : enrolment.merge .builtins enrolmentNode with ⟨e | change, merged⟩
  · rw [hmerge] at hchange
    cases hchange
  · rw [hmerge] at hchange
    exact ⟨change, merged, rfl, hinformed change merged hmerge, Option.some.inj hchange⟩

end HttpSuite.Config
