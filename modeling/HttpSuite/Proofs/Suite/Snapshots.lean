import HttpSuite.Proofs.Suite.OwnSet

/-!
# Configuration is never retroactive

A test keeps the configuration in effect where it was declared, and a set that of its first step.
So what stands further down in a document is of no concern to a step: a document compiles to a set
whose steps begin with those of any part that the document begins with
(`CompileM.document_append`).  The configuration of a test is made of the configuration nodes that
stand before it, merged in their order (`TestSet.HasSnapshots`).

Both come from what some nodes do to a draft, `Draft.Grows`, which holds of one node and is closed
under putting lists of nodes together.
-/

namespace HttpSuite

/-! ## Tests and configuration nodes -/

/-- A node that declares a test. -/
def Value.isTest (node : Value) : Bool :=
  node.nodeKey? == some "url" || node.nodeKey? == some "test"

/-- What a configuration node sets. -/
def Value.configValue? (node : Value) : Option Value :=
  match node.singleKey with
  | .ok ("config", v) | .ok ("configuration", v) => some v
  | _ => none

/-- The configuration with the values of configuration nodes merged one after another. -/
def Config.mergeAll (r : Registry) (c : Config) (values : List Value) :
    Except CompileError Config :=
  values.foldlM (fun c v => (c.merge r v).1.map fun _ => (c.merge r v).2) c

/-- The test of a step, with its configuration. -/
def Step.test? : Step → Option (Test × Config)
  | .test t config => some (t, config)
  | _ => none

/-- A set that comes from some nodes has one test for each test node, in their order: the test that
the node declares, under the configuration that the nodes before it make of the one that the
document started from. -/
structure TestSet.HasSnapshots (r : Registry) (config : Config) (list : List Value)
    (s : TestSet) : Prop where
  length_tests : s.tests.length = list.countP Value.isTest
  snapshot : ∀ before node after, list = before ++ node :: after → node.isTest = true →
    ∃ test c, s.tests[before.countP Value.isTest]? = some (test, c) ∧
      node.directive r = .ok (.test test) ∧
      config.mergeAll r (before.filterMap Value.configValue?) = .ok c

theorem TestSet.tests_eq (s : TestSet) : s.tests = s.steps.filterMap Step.test? := by
  unfold tests
  refine congrArg (List.filterMap · s.steps) (funext fun step => ?_)
  cases step <;> rfl

namespace Config

variable {r : Registry} {c c' : Config}

theorem mergeAll_append (r : Registry) (c : Config) (values values' : List Value) :
    c.mergeAll r (values ++ values') = c.mergeAll r values >>= fun c => c.mergeAll r values' :=
  List.foldlM_append

theorem mergeAll_singleton {v : Value} {change : Change} (h : c.merge r v = (.ok change, c')) :
    c.mergeAll r [v] = .ok c' := by
  rw [mergeAll, List.foldlM_cons, h]
  rfl

end Config

namespace Directive

/-- Whether a directive declares a test. -/
def isTest : Directive → Bool
  | test _ => true
  | _ => false

/-- What a directive sets in the configuration. -/
def configValue? : Directive → Option Value
  | configure v => some v
  | _ => none

/-- The key of a node tells what its directive is about. -/
theorem reads_of_directive {r : Registry} {node : Value} {a : Directive}
    (h : node.directive r = .ok a) :
    node.isTest = a.isTest ∧ node.configValue? = a.configValue? := by
  obtain ⟨key, v, hkey, ha⟩ := eq_ok_of_directive h
  rw [Value.isTest, Value.nodeKey?_eq_some.mpr ⟨v, hkey⟩, Value.configValue?, hkey]
  unfold Directive.of at ha
  split at ha
  · cases ha
    exact ⟨rfl, rfl⟩
  · cases ha
    exact ⟨rfl, rfl⟩
  -- the keys of the three kinds of steps
  iterate 3
    · obtain ⟨_, -, ha⟩ := Except.eq_ok_of_bind ha
      cases ha
      exact ⟨rfl, rfl⟩
  · cases ha

end Directive

/-- An import neither declares a test nor sets anything. -/
theorem Value.reads_of_isImport {node : Value} (h : node.isImport = true) :
    node.isTest = false ∧ node.configValue? = none := by
  rw [isImport, beq_iff_eq] at h
  obtain ⟨v, hkey⟩ := nodeKey?_eq_some.mp h
  rw [isTest, h, configValue?, hkey]
  exact ⟨rfl, rfl⟩

/-! ## What nodes do to a draft -/

namespace Draft

variable {r : Registry} {node : Value} {list : List Value} {d d' : Draft}

/-- What some nodes make of a draft: steps are added behind those there are, as many tests as there
are test nodes; the configuration of the set stays once there is one; and the configuration in
effect has the configuration nodes merged. -/
structure Grows (r : Registry) (list : List Value) (d d' : Draft) : Prop where
  steps : d.steps <+: d'.steps
  setConfig : ∀ seed, d.setConfig = some seed → d'.setConfig = some seed
  tests : (d'.steps.filterMap Step.test?).length =
    (d.steps.filterMap Step.test?).length + list.countP Value.isTest
  config : d.config.mergeAll r (list.filterMap Value.configValue?) = .ok d'.config

theorem Grows.refl (r : Registry) (d : Draft) : Grows r [] d d :=
  ⟨List.prefix_rfl, fun _ h => h, rfl, rfl⟩

theorem Grows.append {first second : List Value} {d₁ : Draft} (h : Grows r first d d₁)
    (h' : Grows r second d₁ d') : Grows r (first ++ second) d d' where
  steps := h.steps.trans h'.steps
  setConfig := fun seed hseed => h'.setConfig seed (h.setConfig seed hseed)
  tests := by
    rw [h'.tests, h.tests, List.countP_append, Nat.add_assoc]
  config := by
    rw [List.filterMap_append, Config.mergeAll_append, h.config]
    exact h'.config

theorem grows_addStep (step : Step) (d : Draft) (hnode : node.isTest = step.test?.isSome)
    (hconfig : node.configValue? = none) : Grows r [node] d (d.addStep step) where
  steps := List.prefix_append ..
  setConfig := fun seed hseed => setConfig_addStep_of_some hseed step
  tests := by
    rw [addStep, List.filterMap_append, List.length_append, List.countP_singleton, hnode]
    cases hstep : step.test? <;> simp [hstep]
  config := by
    rw [List.filterMap_cons, hconfig]
    rfl

/-- **One node**: only a configuration node changes the configuration, and only a test node adds a
test. -/
theorem grows_add (h : d.add r node = .ok d') : Grows r [node] d d' := by
  obtain ⟨a, ha, hact⟩ := eq_ok_of_add h
  obtain ⟨htest, hvalue⟩ := Directive.reads_of_directive ha
  cases a with
  | configure v =>
    obtain ⟨change, config, hm, rfl⟩ := eq_ok_of_configure hact
    refine ⟨?_, fun _ hseed => hseed, ?_, ?_⟩
    · dsimp only
      split
      · exact List.prefix_rfl
      · exact List.prefix_append ..
    · rw [List.countP_singleton, htest]
      dsimp only
      split <;> simp [Step.test?, Directive.isTest]
    · rw [List.filterMap_cons, hvalue]
      exact Config.mergeAll_singleton hm
  | test t =>
    cases hact
    exact grows_addStep _ d htest hvalue
  | operation op =>
    cases hact
    exact grows_addStep _ d htest hvalue

theorem grows_addNodes (h : d.addNodes r list = .ok d') : Grows r list d d' := by
  induction list generalizing d with
  | nil =>
    cases h
    exact .refl r _
  | cons node rest ih =>
    obtain ⟨d₁, hadd, hrest⟩ := eq_ok_of_addNodes_cons h
    exact (grows_add hadd).append (ih hrest)

/-- Imports have no part in it. -/
theorem Grows.of_filter (h : Grows r (list.filter fun node => !node.isImport) d d') :
    Grows r list d d' := by
  refine ⟨h.steps, h.setConfig, h.tests.trans ?_, ?_⟩
  · rw [List.countP_filter]
    refine congrArg _ (List.countP_congr fun node _ => ?_)
    cases himport : node.isImport with
    | true => simp [Value.reads_of_isImport himport]
    | false => simp
  · rw [← h.config, List.filterMap_filter]
    refine congrArg _ (List.filterMap_congr fun node _ => ?_)
    cases himport : node.isImport with
    | true => simp [Value.reads_of_isImport himport]
    | false => simp

theorem addNodes_append (r : Registry) (first second : List Value) (d : Draft) :
    d.addNodes r (first ++ second) = d.addNodes r first >>= addNodes r second := by
  induction first generalizing d with
  | nil => rfl
  | cons node rest ih =>
    rw [List.cons_append, addNodes, addNodes]
    cases d.add r node with
    | error e => rfl
    | ok d₁ => exact ih d₁

/-- A document whose nodes make a draft begins with nodes that make one, and goes on from it. -/
theorem eq_ok_of_ofOwn_append {first second : List Value} {config : Config}
    (h : ofOwn r (first ++ second) config = .ok d) :
    ∃ d₁, ofOwn r first config = .ok d₁ ∧
      d₁.addNodes r (second.filter fun node => !node.isImport) = .ok d := by
  rw [ofOwn, List.filter_append, addNodes_append] at h
  exact Except.eq_ok_of_bind h

end Draft

/-! ## Snapshots -/

/-- **Every test has a snapshot**: the set of a draft made of the nodes of a document. -/
theorem TestSet.hasSnapshots_of_ofOwn {r : Registry} {list : List Value} {config : Config}
    {d : Draft} {s : TestSet} (h : Draft.ofOwn r list config = .ok d)
    (hsteps : s.steps = d.steps) : s.HasSnapshots r config list := by
  refine ⟨?_, ?_⟩
  · rw [tests_eq, hsteps, (Draft.grows_addNodes h).of_filter.tests]
    exact Nat.zero_add _
  · rintro before node after rfl hnode
    obtain ⟨d₁, hbefore, hrest⟩ := Draft.eq_ok_of_ofOwn_append h
    have hgrows := (Draft.grows_addNodes hbefore).of_filter
    have hother : node.isImport = false := by
      rw [Bool.eq_false_iff]
      intro himport
      rw [(Value.reads_of_isImport himport).1] at hnode
      cases hnode
    rw [List.filter_cons, hother, Bool.not_false, if_pos rfl] at hrest
    obtain ⟨d₂, hadd, hafter⟩ := Draft.eq_ok_of_addNodes_cons hrest
    obtain ⟨a, ha, hact⟩ := Draft.eq_ok_of_add hadd
    rw [(Directive.reads_of_directive ha).1] at hnode
    cases a with
    | configure v => cases hnode
    | operation op => cases hnode
    | test test =>
      cases hact
      refine ⟨test, d₁.config, ?_, ha, hgrows.config⟩
      obtain ⟨later, hlater⟩ := (Draft.grows_addNodes hafter).steps
      have hcount : before.countP Value.isTest = (d₁.steps.filterMap Step.test?).length :=
        (hgrows.tests.trans (Nat.zero_add _)).symm
      rw [tests_eq, hsteps, ← hlater, Draft.addStep, hcount, List.append_assoc,
        List.filterMap_append, List.getElem?_append_right (Nat.le_refl _), Nat.sub_self]
      rfl

namespace CompileM

variable {r : Registry} {tree : FileTree} {visited visited' : List String} {directory : String}
  {source : Option String} {config : Config} {sets : List TestSet}

/-- A document that compiles begins with nodes that compile. -/
theorem eq_ok_of_document_append {depth : Nat} {first second : List Value}
    (h : (document r tree depth (.array (first ++ second)) directory source config).run.run
      visited = (.ok sets, visited')) :
    ∃ sets₁ visited₁, (document r tree depth (.array first) directory source config).run.run
      visited = (.ok sets₁, visited₁) := by
  obtain ⟨inner, hinner⟩ := document_eq_documentWith r tree depth
  rw [hinner] at h ⊢
  obtain ⟨list, d, hlist, hnodes, -⟩ := eq_ok_of_documentWith h
  cases hlist
  rw [nodes_append] at hnodes
  obtain ⟨d₁, visited₁, hfirst, -⟩ := ExceptT.eq_ok_of_bind hnodes
  refine ⟨d₁.sets source, visited₁, ?_⟩
  change (nodes r (importWith inner tree directory) first _ >>= fun d => pure (d.sets source) :
    CompileM (List TestSet)).run.run visited = _
  rw [ExceptT.run_run_bind, hfirst]
  rfl

/-- **Configuration is never retroactive.**  Where a document compiles, so does any part that it
begins with.  If that part declares a step, its own set has the configuration of the own set of the
document, and its steps are those that the document begins with.  And every test of the document is
under the configuration that the configuration nodes before it make, merged one after another. -/
theorem document_append {depth : Nat} {first second : List Value}
    (h : (document r tree depth (.array (first ++ second)) directory source config).run.run
      visited = (.ok sets, visited')) :
    ∃ sets₁ visited₁ own₁ own,
      (document r tree depth (.array first) directory source config).run.run visited =
        (.ok sets₁, visited₁) ∧
      TestSet.IsOwn first source visited sets₁ own₁ ∧
      TestSet.IsOwn (first ++ second) source visited sets own ∧
      ((∃ node ∈ first, node.IsStep) → ∃ s₁ s, own₁ = some s₁ ∧ own = some s ∧
        s.config = s₁.config ∧ s₁.steps <+: s.steps) ∧
      ∀ s ∈ own, s.HasSnapshots r config (first ++ second) := by
  obtain ⟨sets₁, visited₁, hfirst⟩ := eq_ok_of_document_append h
  obtain ⟨_, d₁, hlist₁, hd₁, hown₁⟩ := isOwn_of_document hfirst
  obtain ⟨_, d, hlist, hd, hown⟩ := isOwn_of_document h
  cases hlist₁
  cases hlist
  refine ⟨sets₁, visited₁, d₁.own? source, d.own? source, hfirst, hown₁, hown, ?_, ?_⟩
  · intro hstep
    obtain ⟨seed, hseed⟩ := Option.isSome_iff_exists.mp
      ((Draft.isSome_setConfig_ofOwn hd₁).mpr hstep)
    obtain ⟨d₁', hd₁', hrest⟩ := Draft.eq_ok_of_ofOwn_append hd
    cases hd₁.symm.trans hd₁'
    have hgrows := Draft.grows_addNodes hrest
    refine ⟨⟨d₁.steps, seed, source⟩, ⟨d.steps, seed, source⟩, ?_, ?_, rfl, hgrows.steps⟩
    · rw [Draft.own?, hseed]
      rfl
    · rw [Draft.own?, hgrows.setConfig seed hseed]
      rfl
  · intro s hs
    obtain ⟨seed, -, rfl⟩ := Option.mem_map.mp hs
    exact TestSet.hasSnapshots_of_ofOwn hd rfl

/-- A step after a configuration node. -/
def configuredStep : List Value := [
  .object [("config", .object [("retries", .number (.int 2))])],
  .object [("url", .string "http://h/1")]]

/-- The same step under another configuration, which also binds a variable. -/
def reconfiguredStep : List Value := [
  .object [("config", .object [("retries", .number (.int 3)),
    ("variable_binds", .object [("v", .number (.int 1))])])],
  .object [("url", .string "http://h/1")]]

/-- The later configuration counts for the later test alone. -/
theorem document_append_reconfigured :
    ∃ sets visited', (document .builtins ⟨"/", []⟩ 0 (.array (configuredStep ++ reconfiguredStep))
        "/" none {}).run.run [] = (.ok sets, visited') ∧
      ∃ s₁ s : TestSet,
        TestSet.IsOwn (configuredStep ++ reconfiguredStep) none [] sets (some s) ∧
        s.config = s₁.config ∧ s₁.steps <+: s.steps ∧
        s.HasSnapshots .builtins {} (configuredStep ++ reconfiguredStep) ∧
        s.tests.map (fun t => t.2.retries) = [2, 3] := by
  have hretries : ((document .builtins ⟨"/", []⟩ 0 (.array (configuredStep ++ reconfiguredStep))
      "/" none {}).run.run []).1.toOption.bind (fun sets =>
        sets.getLast?.map fun s => s.tests.map fun t => t.2.retries) = some [2, 3] := by
    decide +kernel
  rcases hrun : (document .builtins ⟨"/", []⟩ 0 (.array (configuredStep ++ reconfiguredStep))
    "/" none {}).run.run [] with ⟨e | sets, visited'⟩
  · rw [hrun] at hretries
    cases hretries
  · rw [hrun] at hretries
    obtain ⟨sets₁, visited₁, own₁, own, -, -, hown, hstep, hsnapshots⟩ := document_append hrun
    obtain ⟨s₁, s, rfl, rfl, hconfig, hsteps⟩ := hstep (by decide)
    refine ⟨sets, visited', rfl, s₁, s, hown, hconfig, hsteps, hsnapshots s rfl, ?_⟩
    obtain ⟨imported, rfl, -⟩ := hown.isLast
    simpa [Except.toOption] using hretries

end CompileM

end HttpSuite
