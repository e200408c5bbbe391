import HttpSuite.Proofs.Actions
import HttpSuite.Suite.Compile

/-!
# Compiling node after node

A document is compiled by its nodes in order, and a compiler that succeeds has succeeded at every
one of them.  `CompileM.eq_ok_of_nodes_cons` says what that means for one node: an import adds the
sets of a file and leaves the draft alone otherwise, any other node adds to the draft and visits
nothing.  Nodes that are no imports make up a draft of their own, `Draft.addNodes`.
-/

namespace HttpSuite

/-! ## Nodes -/

/-- The key of a node in small letters, if it is a node. -/
def Value.nodeKey? (node : Value) : Option String := node.singleKey.toOption.map Prod.fst

/-- The nodes of a document, if it is one. -/
def Value.nodes? : Value → Option (List Value)
  | .array list => some list
  | .null => some []
  | _ => none

theorem Value.nodeKey?_eq_some {node : Value} {key : String} :
    node.nodeKey? = some key ↔ ∃ v, node.singleKey = .ok (key, v) := by
  unfold nodeKey?
  cases node.singleKey with
  | error e =>
    constructor
    · intro h
      cases h
    · rintro ⟨v, h⟩
      cases h
  | ok kv =>
    obtain ⟨k, w⟩ := kv
    constructor
    · intro h
      cases h
      exact ⟨w, rfl⟩
    · rintro ⟨v, h⟩
      cases h
      rfl

/-- A node that declares a step. -/
def Value.IsStep (node : Value) : Prop :=
  node.nodeKey? ∈ [some "url", some "test", some "operation"]

instance : DecidablePred Value.IsStep := fun node =>
  inferInstanceAs (Decidable (node.nodeKey? ∈ [some "url", some "test", some "operation"]))

namespace Draft

/-- The draft with a node that is no import. -/
def add (r : Registry) (node : Value) (d : Draft) : Except CompileError Draft := do
  let (key, v) ← node.singleKey
  d.addNode r key v

/-- The draft with the nodes of a document without imports. -/
def addNodes (r : Registry) : List Value → Draft → Except CompileError Draft
  | [], d => .ok d
  | node :: rest, d => do addNodes r rest (← d.add r node)

/-- The set of the steps of a draft, if it has any. -/
def own? (source : Option String) (d : Draft) : Option TestSet :=
  d.setConfig.map fun config => ⟨d.steps, config, source⟩

theorem sets_eq_append (source : Option String) (d : Draft) :
    d.sets source = d.imported ++ (d.own? source).toList := by
  rw [sets, own?]
  cases d.setConfig with
  | none => exact (List.append_nil _).symm
  | some config => rfl

theorem eq_ok_of_addNodes_cons {r : Registry} {node : Value} {rest : List Value} {d d' : Draft}
    (h : addNodes r (node :: rest) d = .ok d') :
    ∃ d₁, d.add r node = .ok d₁ ∧ addNodes r rest d₁ = .ok d' := Except.eq_ok_of_bind h

theorem addNodes_cons {r : Registry} {node : Value} {d d₁ : Draft} (h : d.add r node = .ok d₁)
    (rest : List Value) : addNodes r (node :: rest) d = addNodes r rest d₁ := by
  rw [addNodes, h]
  rfl

end Draft

/-! ## What a node asks for -/

/-- What a node that is no import asks for. -/
inductive Directive where
  | configure (node : Value)
  | test (test : Test)
  | operation (operation : Operation)

/-- Reads the value under the key of a node. -/
def Directive.of (r : Registry) (key : String) (v : Value) : Except CompileError Directive :=
  match key with
  | "config" | "configuration" => .ok (.configure v)
  | "url" => do return .test (Test.ofUrl (← Draft.urlOf v))
  | "test" => do return .test (← Test.compile r v)
  | "operation" => do return .operation (← Draft.operationOf r v)
  | _ => .error (.malformedNode (.unknownNode key))

/-- Reads a node. -/
def Value.directive (r : Registry) (node : Value) : Except CompileError Directive := do
  let (key, v) ← node.singleKey
  Directive.of r key v

/-- The configuration in effect after a node. -/
def Config.after (r : Registry) (c : Config) (node : Value) : Config :=
  match node.singleKey with
  | .ok ("config", v) | .ok ("configuration", v) => (c.merge r v).2
  | _ => c

namespace Directive

variable {r : Registry} {node : Value}

/-- A directive comes from the value under one of the keys that there are. -/
theorem eq_ok_of_directive {a : Directive} (h : node.directive r = .ok a) :
    ∃ key v, node.singleKey = .ok (key, v) ∧ Directive.of r key v = .ok a := by
  obtain ⟨⟨key, v⟩, hkey, ha⟩ := Except.eq_ok_of_bind h
  exact ⟨key, v, hkey, ha⟩

theorem key_of_configure {v : Value} (h : node.directive r = .ok (.configure v)) :
    node.singleKey = .ok ("config", v) ∨ node.singleKey = .ok ("configuration", v) := by
  obtain ⟨key, w, hkey, ha⟩ := eq_ok_of_directive h
  unfold Directive.of at ha
  split at ha
  · cases ha
    exact .inl hkey
  · cases ha
    exact .inr hkey
  · obtain ⟨_, -, ha⟩ := Except.eq_ok_of_bind ha
    cases ha
  · obtain ⟨_, -, ha⟩ := Except.eq_ok_of_bind ha
    cases ha
  · obtain ⟨_, -, ha⟩ := Except.eq_ok_of_bind ha
    cases ha
  · cases ha

theorem not_isStep_of_configure {v : Value} (h : node.directive r = .ok (.configure v)) :
    ¬node.IsStep := by
  intro hstep
  rcases key_of_configure h with hkey | hkey <;>
    simp [Value.IsStep, Value.nodeKey?, hkey, Except.toOption] at hstep

/-- A directive that is not about the configuration is a step, and leaves the configuration. -/
theorem isStep_of_ne_configure {a : Directive} (h : node.directive r = .ok a)
    (hne : ∀ v, a ≠ .configure v) : node.IsStep ∧ ∀ c : Config, c.after r node = c := by
  obtain ⟨key, v, hkey, ha⟩ := eq_ok_of_directive h
  have hnode : node.nodeKey? = some key := Value.nodeKey?_eq_some.mpr ⟨v, hkey⟩
  unfold Directive.of at ha
  split at ha
  · exact absurd (Except.ok.inj ha).symm (hne v)
  · exact absurd (Except.ok.inj ha).symm (hne v)
  -- The keys of the three kinds of steps.
  iterate 3
    · refine ⟨?_, fun c => ?_⟩
      · rw [Value.IsStep, hnode]
        decide
      · rw [Config.after, hkey]
        rfl
  · cases ha

end Directive

namespace Draft

variable {r : Registry} {node : Value} {d d' : Draft}

/-- What a directive does to a draft. -/
def act (r : Registry) (d : Draft) : Directive → Except CompileError Draft
  | .configure v => d.configure r v
  | .test t => .ok (d.addStep (.test t d.config))
  | .operation op => .ok (d.addStep (.operation op))

theorem addNode_eq (r : Registry) (key : String) (v : Value) (d : Draft) :
    d.addNode r key v = Directive.of r key v >>= d.act r := by
  fun_cases Directive.of r key v with
  | case1 => rfl
  | case2 => rfl
  | case3 =>
    rw [addNode]
    cases urlOf v <;> rfl
  | case4 =>
    rw [addNode]
    cases Test.compile r v <;> rfl
  | case5 =>
    rw [addNode]
    cases operationOf r v <;> rfl
  | case6 hconfig hconfiguration hurl htest hoperation =>
    rw [addNode]
    · rfl
    all_goals assumption

/-- **Adding a node is carrying out its directive.** -/
theorem add_eq (r : Registry) (node : Value) (d : Draft) :
    d.add r node = node.directive r >>= d.act r := by
  rw [add, Value.directive]
  cases node.singleKey with
  | error e => rfl
  | ok kv => exact d.addNode_eq r kv.1 kv.2

theorem eq_ok_of_add (h : d.add r node = .ok d') :
    ∃ a, node.directive r = .ok a ∧ d.act r a = .ok d' := by
  rw [add_eq] at h
  exact Except.eq_ok_of_bind h

theorem eq_ok_of_configure {v : Value} (h : d.configure r v = .ok d') :
    ∃ change config, d.config.merge r v = (.ok change, config) ∧
      d' = { d with
        config := config
        steps := if d.steps.isEmpty || change.isEmpty then d.steps
          else d.steps ++ [.configure change] } := by
  rw [configure] at h
  rcases hm : d.config.merge r v with ⟨e | change, config⟩
  · rw [hm] at h
    cases h
  · rw [hm] at h
    cases h
    exact ⟨change, config, rfl, rfl⟩

theorem steps_addStep_ne_nil (step : Step) (d : Draft) : (d.addStep step).steps ≠ [] :=
  List.append_ne_nil_of_right_ne_nil _ (List.cons_ne_nil _ _)

theorem setConfig_addStep_of_some {seed : Config} (h : d.setConfig = some seed) (step : Step) :
    (d.addStep step).setConfig = some seed := by
  rw [addStep, h]
  rfl

theorem setConfig_addStep_of_none (h : d.setConfig = none) (step : Step) :
    (d.addStep step).setConfig = some d.config := by
  rw [addStep, h]
  rfl

/-- What was imported has no part in what a directive does. -/
theorem act_imported {a : Directive} (h : d.act r a = .ok d') (sets : List TestSet) :
    { d with imported := sets }.act r a = .ok { d' with imported := sets } := by
  cases a with
  | configure v =>
    obtain ⟨change, config, hm, rfl⟩ := eq_ok_of_configure h
    rw [act, configure]
    simp only [hm]
  | test t =>
    cases h
    rfl
  | operation op =>
    cases h
    rfl

/-- What was imported has no part in what a node adds. -/
theorem add_imported (h : d.add r node = .ok d') (sets : List TestSet) :
    { d with imported := sets }.add r node = .ok { d' with imported := sets } := by
  obtain ⟨a, ha, hact⟩ := eq_ok_of_add h
  rw [add_eq, ha]
  exact act_imported hact sets

theorem imported_add (h : d.add r node = .ok d') : d'.imported = d.imported := by
  have hsame : Except.ok d' = Except.ok { d' with imported := d.imported } :=
    h.symm.trans (add_imported h d.imported)
  injection hsame with hsame
  have himported := congrArg Draft.imported hsame
  exact himported

theorem imported_addNodes {list : List Value} (h : d.addNodes r list = .ok d') :
    d'.imported = d.imported := by
  induction list generalizing d with
  | nil =>
    cases h
    rfl
  | cons node rest ih =>
    obtain ⟨d₁, hd₁, hrest⟩ := eq_ok_of_addNodes_cons h
    rw [ih hrest, imported_add hd₁]

theorem config_add (h : d.add r node = .ok d') : d'.config = d.config.after r node := by
  obtain ⟨a, ha, hact⟩ := eq_ok_of_add h
  cases a with
  | configure v =>
    obtain ⟨change, config, hm, rfl⟩ := eq_ok_of_configure hact
    rcases Directive.key_of_configure ha with hkey | hkey
    · rw [Config.after, hkey]
      exact (congrArg Prod.snd hm).symm
    · rw [Config.after, hkey]
      exact (congrArg Prod.snd hm).symm
  | test t =>
    cases hact
    exact ((Directive.isStep_of_ne_configure ha (by simp)).2 _).symm
  | operation op =>
    cases hact
    exact ((Directive.isStep_of_ne_configure ha (by simp)).2 _).symm

/-- A draft has the configuration of a set as soon as it has a step. -/
theorem isSome_setConfig_add (h : d.add r node = .ok d') :
    d'.setConfig.isSome ↔ d.setConfig.isSome ∨ node.IsStep := by
  obtain ⟨a, ha, hact⟩ := eq_ok_of_add h
  have hstep (step : Step) : (d.addStep step).setConfig.isSome := by
    rcases hd : d.setConfig with _ | seed
    · rw [setConfig_addStep_of_none hd]
      rfl
    · rw [setConfig_addStep_of_some hd]
      rfl
  cases a with
  | configure v =>
    obtain ⟨change, config, hm, rfl⟩ := eq_ok_of_configure hact
    exact ⟨.inl, fun hor => hor.resolve_right (Directive.not_isStep_of_configure ha)⟩
  | test t =>
    cases hact
    exact ⟨fun _ => .inr (Directive.isStep_of_ne_configure ha (by simp)).1, fun _ => hstep _⟩
  | operation op =>
    cases hact
    exact ⟨fun _ => .inr (Directive.isStep_of_ne_configure ha (by simp)).1, fun _ => hstep _⟩

theorem isSome_setConfig_addNodes {list : List Value} (h : d.addNodes r list = .ok d') :
    d'.setConfig.isSome ↔ d.setConfig.isSome ∨ ∃ node ∈ list, node.IsStep := by
  induction list generalizing d with
  | nil =>
    cases h
    simp
  | cons node rest ih =>
    obtain ⟨d₁, hd₁, hrest⟩ := eq_ok_of_addNodes_cons h
    rw [ih hrest, isSome_setConfig_add hd₁]
    simp only [List.mem_cons, or_and_right, exists_or, exists_eq_left, or_assoc]

end Draft

/-! ## One node of a document that compiles -/

namespace CompileM

variable {r : Registry} {tree : FileTree} {importSets : Value → Config → CompileM (List TestSet)}
  {visited visited' : List String} {d d' : Draft}

theorem eq_ok_of_ofExcept {α : Type} {x : Except CompileError α} {a : α}
    (h : (ofExcept x).run.run visited = (.ok a, visited')) : x = .ok a ∧ visited' = visited := by
  cases x with
  | ok b =>
    cases h
    exact ⟨rfl, rfl⟩
  | error e => cases h

/-- **One node.**  An import adds sets and may visit files, any other node does neither. -/
theorem eq_ok_of_nodes_cons {node : Value} {rest : List Value}
    (h : (nodes r importSets (node :: rest) d).run.run visited = (.ok d', visited')) :
    (∃ v sets visited₁, node.singleKey = .ok ("import", v) ∧
        (importSets v d.config).run.run visited = (.ok sets, visited₁) ∧
        (nodes r importSets rest { d with imported := d.imported ++ sets }).run.run visited₁ =
          (.ok d', visited')) ∨
      (node.nodeKey? ≠ some "import" ∧ ∃ d₁, d.add r node = .ok d₁ ∧
        (nodes r importSets rest d₁).run.run visited = (.ok d', visited')) := by
  rw [nodes] at h
  obtain ⟨⟨key, v⟩, visited₁, hread, hnode⟩ := ExceptT.eq_ok_of_bind h
  obtain ⟨hkey, rfl⟩ := eq_ok_of_ofExcept hread
  dsimp only at hnode
  by_cases himport : key = "import"
  · subst himport
    rw [if_pos rfl] at hnode
    obtain ⟨sets, visited₂, hsets, hrest⟩ := ExceptT.eq_ok_of_bind hnode
    exact .inl ⟨v, sets, visited₂, hkey, hsets, hrest⟩
  · rw [if_neg himport] at hnode
    obtain ⟨d₁, visited₂, hadd, hrest⟩ := ExceptT.eq_ok_of_bind hnode
    obtain ⟨hd₁, rfl⟩ := eq_ok_of_ofExcept hadd
    refine .inr ⟨?_, d₁, ?_, hrest⟩
    · rw [Value.nodeKey?, hkey]
      intro heq
      exact himport (Option.some.inj heq)
    · rw [Draft.add, hkey]
      exact hd₁

/-- Nothing is visited for a document without imports, and nothing but its nodes matters. -/
theorem run_nodes_of_no_import {list : List Value}
    (himports : ∀ node ∈ list, node.nodeKey? ≠ some "import") :
    (nodes r importSets list d).run.run visited = (d.addNodes r list, visited) := by
  induction list generalizing d with
  | nil => rfl
  | cons node rest ih =>
    have hrest := fun n hn => himports n (List.mem_cons_of_mem _ hn)
    rw [nodes, Draft.addNodes, Draft.add, ExceptT.run_run_bind]
    cases hkey : node.singleKey with
    | error e => rfl
    | ok kv =>
      obtain ⟨key, v⟩ := kv
      have himport : key ≠ "import" := by
        rintro rfl
        exact himports node (List.mem_cons_self ..) (Value.nodeKey?_eq_some.mpr ⟨v, hkey⟩)
      change (if key = "import" then _ else _ : CompileM Draft).run.run visited =
        (d.addNode r key v >>= fun d => d.addNodes r rest, visited)
      rw [if_neg himport, ExceptT.run_run_bind]
      cases hadd : d.addNode r key v with
      | error e => rfl
      | ok d₁ => exact ih hrest

/-- The nodes of a document are compiled one part after another. -/
theorem nodes_append (first second : List Value) (d : Draft) :
    nodes r importSets (first ++ second) d =
      nodes r importSets first d >>= nodes r importSets second := by
  induction first generalizing d with
  | nil => exact (pure_bind d _).symm
  | cons node rest ih =>
    rw [List.cons_append, nodes, nodes, bind_assoc]
    refine congrArg _ (funext fun kv => ?_)
    dsimp only
    split
    · rw [bind_assoc]
      exact congrArg _ (funext fun sets => ih _)
    · rw [bind_assoc]
      exact congrArg _ (funext fun d => ih d)

/-- A document that compiles is a list of nodes and gives the sets of their draft. -/
theorem eq_ok_of_documentWith {inner : DocumentCompiler} {document : Value} {directory : String}
    {source : Option String} {config : Config} {sets : List TestSet}
    (h : (documentWith r tree inner document directory source config).run.run visited =
      (.ok sets, visited')) :
    ∃ list d, document.nodes? = some list ∧
      (nodes r (importWith inner tree directory) list ⟨config, [], none, []⟩).run.run visited =
        (.ok d, visited') ∧ sets = d.sets source := by
  have hdraft (list : List Value) (hlist : (nodes r (importWith inner tree directory) list
      ⟨config, [], none, []⟩ >>= fun d => pure (d.sets source) :
        CompileM (List TestSet)).run.run visited = (.ok sets, visited')) :
      ∃ d, (nodes r (importWith inner tree directory) list ⟨config, [], none, []⟩).run.run
        visited = (.ok d, visited') ∧ sets = d.sets source := by
    obtain ⟨d, _, hd, hsets⟩ := ExceptT.eq_ok_of_bind hlist
    cases hsets
    exact ⟨d, hd, rfl⟩
  cases document with
  | array list =>
    obtain ⟨d, hd, rfl⟩ := hdraft list h
    exact ⟨list, d, rfl, hd, rfl⟩
  | null =>
    obtain ⟨d, hd, rfl⟩ := hdraft [] h
    exact ⟨[], d, rfl, hd, rfl⟩
  | _ => cases h

theorem document_eq_documentWith (r : Registry) (tree : FileTree) (depth : Nat) :
    ∃ inner, document r tree depth = documentWith r tree inner := by
  cases depth with
  | zero => exact ⟨_, rfl⟩
  | succ depth => exact ⟨_, rfl⟩

/-! ## The file of an import -/

variable {inner : DocumentCompiler} {directory name path : String}

theorem run_importWith_of_error {fault : FileFault}
    (h : tree.canonicalPath (Path.join directory name) = .error fault) (config : Config) :
    (importWith inner tree directory (.string name) config).run.run visited =
      (.error (.fileRead (Path.join directory name) fault.message), visited) := by
  simp only [importWith, canonicalPath, h]
  rfl

/-- A file that has been come to before adds nothing. -/
theorem run_importWith_of_mem (h : tree.canonicalPath (Path.join directory name) = .ok path)
    (hseen : path ∈ visited) (config : Config) :
    (importWith inner tree directory (.string name) config).run.run visited =
      (.ok [], visited) := by
  simp only [importWith, canonicalPath, h]
  change (if visited.contains path then pure []
    else modify (path :: ·) >>= fun _ => fileWith inner tree path config :
      CompileM (List TestSet)).run.run visited = _
  rw [if_pos (List.contains_iff_mem.mpr hseen)]
  rfl

/-- A file that is come to for the first time is compiled. -/
theorem run_importWith_of_notMem (h : tree.canonicalPath (Path.join directory name) = .ok path)
    (hfresh : path ∉ visited) (config : Config) :
    (importWith inner tree directory (.string name) config).run.run visited =
      (fileWith inner tree path config).run.run (path :: visited) := by
  simp only [importWith, canonicalPath, h]
  change (if visited.contains path then pure []
    else modify (path :: ·) >>= fun _ => fileWith inner tree path config :
      CompileM (List TestSet)).run.run visited = _
  rw [if_neg (mt List.contains_iff_mem.mp hfresh)]
  rfl

end CompileM

namespace Compiler

theorem run_run_of_run {c c' : Compiler} {m : CompileM (List TestSet)}
    {outcome : Except CompileError (List TestSet)} (h : c.run m = (outcome, c')) :
    m.run.run c.visited = (outcome, c'.visited) := by
  rw [run] at h
  obtain ⟨houtcome, rfl⟩ := Prod.mk.inj h
  exact Prod.ext houtcome rfl

/-! ## The entry of a call -/

/-- The compiler that has come to a file. -/
def comeTo (c : Compiler) (path : String) : Compiler :=
  { c with visited := if c.visited.contains path then c.visited else path :: c.visited }

theorem mem_visited_comeTo {c : Compiler} {path q : String} :
    q ∈ (c.comeTo path).visited ↔ q = path ∨ q ∈ c.visited := by
  rw [comeTo]
  cases hseen : c.visited.contains path with
  | true =>
    rw [if_pos rfl]
    refine ⟨.inr, fun h => h.elim (fun heq => ?_) id⟩
    rw [heq]
    exact List.contains_iff_mem.mp hseen
  | false => exact List.mem_cons

variable (c : Compiler) {tree : FileTree} {path : String}

theorem compileFile_of_error {fault : FileFault} (h : tree.canonicalPath path = .error fault) :
    c.compileFile tree path = (.error (.fileRead path fault.message), c) := by
  simp only [compileFile, CompileM.canonicalPath, h]
  rfl

theorem compileFile_of_ok {entry : String} (h : tree.canonicalPath path = .ok entry) :
    c.compileFile tree path =
      (c.comeTo entry).run (CompileM.fileWith (CompileM.document c.registry tree tree.size) tree
        entry c.startConfig) := by
  simp only [compileFile, CompileM.canonicalPath, h]
  rfl

end Compiler

end HttpSuite
