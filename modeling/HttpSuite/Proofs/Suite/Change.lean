import HttpSuite.Proofs.Suite.Config

/-!
# What a configuration node changes

A configuration node that stands after the first step of a set reaches a context that is in use.
What it may do there is little: `Config.Reconfigures` says that the variables which the node binds
get the values that they have in the merged configuration, that the generators which it declares
start anew, and that everything else is left as it was.  What a node binds and declares is read off
the node alone (`Config.boundNames`, `Config.declarations`).

`Config.merge_reconfigures` states this for every context, next to the case of a context that has
only just been made: there the change makes up for the whole merge.
-/

namespace HttpSuite.Config

/-- What a configuration node does to a context in use, given the configuration that it was merged
into. -/
structure Reconfigures (r : Registry) (node : Value) (merged : Config) (context after : Context) :
    Prop where
  /-- What the node binds has its value in the merged configuration. -/
  bound : ∀ name ∈ boundNames node, ∃ v, Entries.get? name merged.variableBinds = some v ∧
    after.get? name = some v
  unbound : ∀ name, name ∉ boundNames node → after.get? name = context.get? name
  /-- What the node declares is the generator of the merged configuration, before its first pull. -/
  declared : ∀ d ∈ declarations node, ∃ g, generatorOf r merged d.1 d.2 = .ok g ∧
    Entries.get? d.1 merged.generators = some g ∧ Entries.get? d.1 after.generators = some g.start
  /-- Other generators go on from where they are. -/
  undeclared : ∀ name, name ∉ Entries.keys (declarations node) →
    Entries.get? name after.generators = Entries.get? name context.generators
  environment : after.environment = context.environment

/-- A node declares every generator once. -/
theorem nodup_keys_declarations (node : Value) : (Entries.keys (declarations node)).Nodup := by
  unfold declarations
  split
  · rename_i v _
    rw [Fields.ofValue]
    cases Fields.entries v "generators" with
    | ok entries => exact Entries.nodup_keys_ofList entries
    | error e => exact List.nodup_nil
  · exact List.nodup_nil

variable {r : Registry} {c c' : Config} {node : Value} {change : Change}

theorem keys_generators_of_merge (h : c.merge r node = (.ok change, c')) :
    Entries.keys change.generators = Entries.keys (declarations node) := by
  obtain ⟨-, -, -, hdeclared⟩ := merge_spec h
  rw [Entries.keys, Entries.keys, ← List.forall₂_eq_eq_eq, List.forall₂_map_left_iff,
    List.forall₂_map_right_iff]
  exact hdeclared.flip.imp fun _ _ hd => hd.1

theorem nodup_generators_of_merge (h : c.merge r node = (.ok change, c')) :
    (Entries.keys change.generators).Nodup := by
  rw [keys_generators_of_merge h]
  exact nodup_keys_declarations node

/-- Every declaration has its generator in the change. -/
theorem exists_generator_of_merge (h : c.merge r node = (.ok change, c')) {d : String × Value}
    (hd : d ∈ declarations node) :
    ∃ g, generatorOf r c' d.1 d.2 = .ok g ∧ Entries.get? d.1 change.generators = some g := by
  obtain ⟨-, -, -, hdeclared⟩ := merge_spec h
  obtain ⟨⟨name, g⟩, hmem, hname, hg⟩ := exists_left_of_forall₂ hdeclared.flip hd
  subst hname
  exact ⟨g, hg, Entries.get?_of_mem (nodup_generators_of_merge h) hmem⟩

/-- **A change does to a context in use what its node says**, and nothing else. -/
theorem reconfigures_apply (h : c.merge r node = (.ok change, c')) (context : Context) :
    Reconfigures r node c' context (change.apply context) := by
  obtain ⟨hrebinds, hbindings, hgens, -⟩ := merge_spec h
  have hnodup := nodup_generators_of_merge h
  have hvariable (name : String) : (change.apply context).get? name =
      if name ∈ boundNames node then Entries.get? name c'.variableBinds
      else context.get? name := by
    rw [Context.get?, Change.apply, Context.bindings_addGenerators, Context.bindings_bindAll,
      hbindings]
    exact hrebinds.get?_insertAll_touched context.bindings name
  have hgenerator (name : String) : Entries.get? name (change.apply context).generators =
      ((Entries.get? name change.generators).map Generator.start).or
        (Entries.get? name context.generators) := by
    rw [Change.apply, Context.generators_addGenerators, Context.generators_bindAll,
      Entries.get?_insertAll_of_nodup (by rwa [Entries.keys_map]), Entries.get?_map]
  constructor
  case bound =>
    intro name hname
    obtain ⟨v, hv⟩ := Entries.exists_get?_of_mem (hrebinds.mem_keys hname)
    exact ⟨v, hv, by rw [hvariable, if_pos hname, hv]⟩
  case unbound =>
    intro name hname
    rw [hvariable, if_neg hname]
  case declared =>
    intro d hd
    obtain ⟨g, hg, hget⟩ := exists_generator_of_merge h hd
    refine ⟨g, hg, ?_, ?_⟩
    · rw [hgens, Entries.get?_insertAll_of_nodup hnodup, hget, Option.some_or]
    · rw [hgenerator, hget, Option.map_some, Option.some_or]
  case undeclared =>
    intro name hname
    have hnone : Entries.get? name change.generators = none :=
      Entries.get?_eq_none (by rwa [keys_generators_of_merge h])
    rw [hgenerator, hnone, Option.map_none, Option.none_or]
  case environment =>
    rw [Change.apply, Context.environment_addGenerators, Context.environment_bindAll]

/-- **Merging a node and applying its change agree.**  A context that is made from the merged
configuration is one that is made before, with the change applied: the variables stand in the same
order, and the generators are at the same place.  A context in use gets what the node binds and
declares, and keeps everything else.  Names stay distinct, so that this goes on with the next
node. -/
theorem merge_reconfigures (hc : c.DistinctNames) (h : c.merge r node = (.ok change, c')) :
    c'.DistinctNames ∧
      (∀ env, change.apply (c.newContext env) = c'.newContext env) ∧
        ∀ context, Reconfigures r node c' context (change.apply context) :=
  ⟨hc.merge h, fun _ => apply_newContext hc h, reconfigures_apply h⟩

/-- A mapping and a number, and two generators. -/
def enrolment : Config where
  variableBinds := [("user", .object [("name", .string "ada")]), ("first", .int 3)]
  generators := [("ids", .sequence 1 1), ("tags", .fixed [.string "a", .string "b"])]

/-- A node in list form that adds to the mapping, gives another number and declares one of the
generators anew, from that number on. -/
def enrolmentNode : Value :=
  .array [.object [("generators", .object [("ids", .object [("type", .string "number_sequence"),
      ("start", .string "{{first}}")])])],
    .object [("Variable_Binds", .object [("user", .object [("role", .string "admin")]),
      ("first", .int 7)])],
    .object [("default_base_url", .string "http://h")]]

/-- A context in use, where the mapping is bound to something else and both generators have been
pulled. -/
def enrolled : Context where
  environment := []
  bindings := [("token", .string "t"), ("user", .null), ("first", .int 5)]
  generators := [("tags", .fixed [.string "a", .string "b"] 1), ("ids", .sequence 9 1)]

/-- The mapping comes from the configuration and not from the context, and one of the generators
goes on from where it is. -/
theorem merge_reconfigures_enrolment :
    ∃ change merged, enrolment.merge .builtins enrolmentNode = (.ok change, merged) ∧
      merged.DistinctNames ∧
      (∀ env, change.apply (enrolment.newContext env) = merged.newContext env) ∧
      Reconfigures .builtins enrolmentNode merged enrolled (change.apply enrolled) ∧
      (change.apply enrolled).bindings.map (fun e => (e.1, e.2.toText)) =
        [("token", "\"t\""), ("user", "\x7b\"name\":\"ada\",\"role\":\"admin\"\x7d"),
          ("first", "7"), ("default_base_url", "\"http://h\"")] ∧
      ["ids", "tags"].map (fun g => ((change.apply enrolled).next g).1.toOption.map Value.toText) =
        [some "7", some "\"b\""] := by
  have hdistinct : enrolment.DistinctNames := ⟨by decide, by decide⟩
  have hchange : (enrolment.merge .builtins enrolmentNode).1.toOption.map (fun change =>
      ((change.apply enrolled).bindings.map (fun e => (e.1, e.2.toText)),
        ["ids", "tags"].map fun g =>
          ((change.apply enrolled).next g).1.toOption.map Value.toText)) =
      some ([("token", "\"t\""), ("user", "\x7b\"name\":\"ada\",\"role\":\"admin\"\x7d"),
          ("first", "7"), ("default_base_url", "\"http://h\"")],
        [some "7", some "\"b\""]) := by decide +kernel
  rcases hmerge : enrolment.merge .builtins enrolmentNode with ⟨e | change, merged⟩
  · rw [hmerge] at hchange
    cases hchange
  · rw [hmerge] at hchange
    obtain ⟨hvariables, hgenerators⟩ := Prod.mk.inj (Option.some.inj hchange)
    obtain ⟨hnames, hcontexts, hall⟩ := merge_reconfigures hdistinct hmerge
    exact ⟨change, merged, rfl, hnames, hcontexts, hall enrolled, hvariables, hgenerators⟩

end HttpSuite.Config
