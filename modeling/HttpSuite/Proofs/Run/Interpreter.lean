import HttpSuite.Proofs.Run.Program
import HttpSuite.Proofs.Suite.Compile
import HttpSuite.Proofs.Suite.Config
import HttpSuite.Run.Runner

/-!
# Compiling a document is carrying it out

A document without imports can be carried out as it is read.  `Interpreter.walk` does that with one
configuration and one context side by side: a configuration node is merged into the first and its
change applied to the second at once, and whatever else stands in the document runs against both.

A compiled set knows nothing of the kind.  It starts from the configuration that was in effect at
its first step, its tests carry copies of the configuration, and of later configuration nodes only
those are left that change something.  `Compiler.interpret_eq_run` says that none of this can be
seen from outside: results, context and everything that is sent, printed, logged and waited for are
the same, against every transport.

## The invariant

Before the first step the running context is the one that the configuration gives to a run that
starts (`Config.apply_newContext` carries this through a configuration node).  From the first step
on the two sides hold one context, and each node stands for the steps it adds (`Agree`).
-/

namespace HttpSuite

variable {σ : Type}

/-! ## Carrying out a document -/

namespace Interpreter

/-- Carries out the nodes of a document in order, up to the first one that cannot be read or the
first test that fails and asks for an end. -/
def walk (r : Registry) (policy : RetryPolicy) :
    List Value → Config → Progress → Program (Except CompileError Progress)
  | [], _, p => return .ok p
  | node :: rest, config, p =>
    match node.directive r with
    | .error e => return .error e
    | .ok (.configure v) =>
      match config.merge r v with
      | (.error e, _) => return .error e
      | (.ok change, config) =>
        walk r policy rest config { p with context := change.apply p.context }
    | .ok (.test t) => do
      let (result, context) ← t.run policy config p.context
      let p := p.add result context
      if !result.passed && t.stopOnFailure then
        Program.notes [TestSet.stopNote]
        return .ok { p with stoppedEarly := true }
      match t.delay with
      | some d => Program.pause d
      | none => pure ()
      walk r policy rest config p
    | .ok (.operation op) => do
      match ← op.run p.context with
      | (.ok _, context) => walk r policy rest config { p with context := context }
      | (.error e, context) =>
        Program.notes (op.failure e).notes
        walk r policy rest config (p.add (op.failure e) context)

/-- Carries out a document from a fresh context of an initial configuration. -/
def interpret (r : Registry) (policy : RetryPolicy) (env : Environment) (config : Config)
    (document : List Value) : Program (Except CompileError Progress) :=
  walk r policy document config ⟨config.newContext env, [], false⟩

end Interpreter

/-! ## Agreement -/

namespace Interpreter

variable {r : Registry}

/-- Carrying out nodes under a configuration is running some steps, from wherever a set has come
to. -/
def Agree (r : Registry) (nodes : List Value) (config : Config) (steps : List Step) : Prop :=
  ∀ policy p, walk r policy nodes config p =
    TestSet.runSteps policy steps p >>= fun p => pure (.ok p)

theorem Agree.nil (config : Config) : Agree r [] config [] := fun _ _ => rfl

theorem Agree.test {node : Value} {rest : List Value} {config : Config} {steps : List Step}
    {t : Test} (hread : node.directive r = .ok (.test t)) (h : Agree r rest config steps) :
    Agree r (node :: rest) config (.test t config :: steps) := by
  intro policy p
  rw [walk, hread, TestSet.runSteps, Program.bind_assoc]
  refine congrArg (Program.bind _) (funext fun x => ?_)
  obtain ⟨result, context⟩ := x
  dsimp only
  split
  · rfl
  · cases t.delay with
    | none => exact h _ _
    | some d =>
      dsimp only
      rw [Program.bind_assoc]
      exact congrArg (Program.bind _) (funext fun _ => h _ _)

theorem Agree.operation {node : Value} {rest : List Value} {config : Config} {steps : List Step}
    {op : Operation} (hread : node.directive r = .ok (.operation op))
    (h : Agree r rest config steps) :
    Agree r (node :: rest) config (.operation op :: steps) := by
  intro policy p
  rw [walk, hread, TestSet.runSteps, Program.bind_assoc]
  refine congrArg (Program.bind _) (funext fun x => ?_)
  obtain ⟨outcome, context⟩ := x
  cases outcome with
  | ok _ => exact h _ _
  | error e =>
    dsimp only
    rw [Program.bind_assoc]
    exact congrArg (Program.bind _) (funext fun _ => h _ _)

theorem Agree.configure {node v : Value} {rest : List Value} {config config' : Config}
    {steps : List Step} {change : Config.Change} (hread : node.directive r = .ok (.configure v))
    (hmerge : config.merge r v = (.ok change, config'))
    (h : Agree r rest config' steps) :
    Agree r (node :: rest) config (.configure change :: steps) := by
  intro policy p
  rw [walk, hread]
  simp only [hmerge]
  exact h _ _

/-- A node that changes nothing in the running context needs no step. -/
theorem Agree.skip {node v : Value} {rest : List Value} {config config' : Config}
    {steps : List Step} {change : Config.Change} (hread : node.directive r = .ok (.configure v))
    (hmerge : config.merge r v = (.ok change, config')) (hempty : change.isEmpty = true)
    (h : Agree r rest config' steps) : Agree r (node :: rest) config steps := by
  intro policy p
  rw [walk, hread]
  simp only [hmerge, Config.Change.apply_of_isEmpty hempty]
  exact h policy p

/-- **From the first step on**, the nodes of a document agree with the steps they add. -/
theorem agree_addNodes {nodes : List Value} {d d' : Draft} (hne : d.steps ≠ [])
    {seed : Config} (hseed : d.setConfig = some seed) (h : d.addNodes r nodes = .ok d') :
    ∃ steps, d'.steps = d.steps ++ steps ∧ d'.setConfig = some seed ∧
      Agree r nodes d.config steps := by
  induction nodes generalizing d with
  | nil =>
    cases h
    exact ⟨[], (List.append_nil _).symm, hseed, .nil _⟩
  | cons node rest ih =>
    obtain ⟨d₁, hadd, hrest⟩ := Draft.eq_ok_of_addNodes_cons h
    obtain ⟨a, hread, hact⟩ := Draft.eq_ok_of_add hadd
    have hsteps (step : Step) : (d.addStep step).steps ≠ [] := d.steps_addStep_ne_nil step
    have hconfig := Draft.setConfig_addStep_of_some hseed
    cases a with
    | configure v =>
      obtain ⟨change, config, hmerge, rfl⟩ := Draft.eq_ok_of_configure hact
      have hstarted : d.steps.isEmpty = false := by
        rw [List.isEmpty_eq_false_iff]
        exact hne
      cases hempty : change.isEmpty with
      | true =>
        rw [hempty, Bool.or_true, if_pos rfl] at hrest
        obtain ⟨steps, hsteps', hseed', hagree⟩ := ih (by exact hne) (by exact hseed) hrest
        exact ⟨steps, hsteps', hseed', hagree.skip hread hmerge hempty⟩
      | false =>
        rw [hempty, hstarted, Bool.or_false, if_neg Bool.false_ne_true] at hrest
        obtain ⟨steps, hsteps', hseed', hagree⟩ := ih (by simp) (by exact hseed) hrest
        refine ⟨.configure change :: steps, ?_, hseed', hagree.configure hread hmerge⟩
        rw [hsteps', List.append_assoc, List.singleton_append]
    | test t =>
      cases hact
      obtain ⟨steps, hsteps', hseed', hagree⟩ := ih (hsteps _) (hconfig _) hrest
      refine ⟨.test t d.config :: steps, ?_, hseed', hagree.test hread⟩
      rw [hsteps', Draft.addStep, List.append_assoc, List.singleton_append]
    | operation op =>
      cases hact
      obtain ⟨steps, hsteps', hseed', hagree⟩ := ih (hsteps _) (hconfig _) hrest
      refine ⟨.operation op :: steps, ?_, hseed', hagree.operation hread⟩
      rw [hsteps', Draft.addStep, List.append_assoc, List.singleton_append]

/-- The first step, and what the nodes after it compile to. -/
theorem agree_first {nodes : List Value} {d d' : Draft} {step : Step} (hnone : d.steps = [])
    (hseed : d.setConfig = none) (h : (d.addStep step).addNodes r nodes = .ok d') :
    ∃ steps, d'.steps = step :: steps ∧ d'.setConfig = some d.config ∧
      Agree r nodes d.config steps := by
  obtain ⟨steps, hsteps, hseed', hagree⟩ := agree_addNodes (d.steps_addStep_ne_nil step)
    (Draft.setConfig_addStep_of_none hseed step) h
  refine ⟨steps, ?_, hseed', hagree⟩
  rw [hsteps, Draft.addStep, hnone, List.nil_append, List.singleton_append]

/-- **From the start**, where nothing has run, the context is the one of the configuration in
effect; the first step fixes both for the set. -/
theorem walk_newContext {nodes : List Value} {d d' : Draft} (hnone : d.steps = [])
    (hseed : d.setConfig = none) (hd : d.config.DistinctNames)
    (hstep : ∃ node ∈ nodes, node.IsStep) (h : d.addNodes r nodes = .ok d') :
    ∃ seed, d'.setConfig = some seed ∧ ∀ policy env,
      walk r policy nodes d.config ⟨d.config.newContext env, [], false⟩ =
        TestSet.runSteps policy d'.steps ⟨seed.newContext env, [], false⟩ >>=
          fun p => pure (.ok p) := by
  induction nodes generalizing d with
  | nil =>
    obtain ⟨node, hmem, -⟩ := hstep
    cases hmem
  | cons node rest ih =>
    obtain ⟨d₁, hadd, hrest⟩ := Draft.eq_ok_of_addNodes_cons h
    obtain ⟨a, hread, hact⟩ := Draft.eq_ok_of_add hadd
    cases a with
    | configure v =>
      obtain ⟨change, config, hmerge, rfl⟩ := Draft.eq_ok_of_configure hact
      rw [hnone, List.isEmpty_nil, Bool.true_or, if_pos rfl] at hrest
      have hstep' : ∃ node ∈ rest, node.IsStep := by
        obtain ⟨n, hn, hs⟩ := hstep
        rcases List.mem_cons.mp hn with rfl | hn
        · exact absurd hs (Directive.not_isStep_of_configure hread)
        · exact ⟨n, hn, hs⟩
      obtain ⟨seed, hseed', hwalk⟩ :=
        ih (by rfl) (by exact hseed) (by exact hd.merge hmerge) hstep' hrest
      refine ⟨seed, hseed', fun policy env => ?_⟩
      rw [walk, hread]
      simp only [hmerge, Config.apply_newContext hd hmerge]
      exact hwalk policy env
    | test t =>
      cases hact
      obtain ⟨steps, hsteps, hseed', hagree⟩ := agree_first hnone hseed hrest
      refine ⟨d.config, hseed', fun policy env => ?_⟩
      rw [hsteps]
      exact hagree.test hread _ _
    | operation op =>
      cases hact
      obtain ⟨steps, hsteps, hseed', hagree⟩ := agree_first hnone hseed hrest
      refine ⟨d.config, hseed', fun policy env => ?_⟩
      rw [hsteps]
      exact hagree.operation hread _ _

end Interpreter

/-! ## Compiled documents -/

namespace TestSet

/-- A run of a set whose tests are one after another. -/
theorem run_sequential (policy : RetryPolicy) (env : Environment) (s : TestSet) :
    s.sequential.run policy env =
      runSteps policy s.steps ⟨s.config.newContext env, [], false⟩ >>= fun p =>
        pure ⟨s.name, p.results, p.context, p.stoppedEarly, s.config.skipTermColors⟩ := rfl

end TestSet

namespace Compiler

theorem distinctNames_startConfig {c : Compiler} (h : (Entries.keys c.bindings).Nodup) :
    c.startConfig.DistinctNames := ⟨h, List.nodup_nil⟩

/-- A document without imports compiles to the sets of the draft of its nodes. -/
theorem compile_of_no_import {c c' : Compiler} {tree : FileTree} {list : List Value}
    {directory : String} {sets : List TestSet}
    (himports : ∀ node ∈ list, node.nodeKey? ≠ some "import")
    (h : c.compile tree (.array list) directory = (.ok sets, c')) :
    ∃ d, Draft.addNodes c.registry list ⟨c.startConfig, [], none, []⟩ = .ok d ∧
      sets = d.sets none := by
  obtain ⟨inner, hinner⟩ := CompileM.document_eq_documentWith c.registry tree tree.size
  rw [compile, hinner] at h
  obtain ⟨list', d, hlist, hd, rfl⟩ := CompileM.eq_ok_of_documentWith (run_run_of_run h)
  cases hlist
  rw [CompileM.run_nodes_of_no_import himports] at hd
  exact ⟨d, congrArg Prod.fst hd, rfl⟩

/-- **Compiling a document is carrying it out.**  The set of a document without imports, run with
its tests one after another, comes to the results, the context and the world to which the document
itself comes, against every transport, or breaks off where the document does.  The variables that a
compiler is given are a mapping, so no name stands twice among them. -/
theorem interpret_eq_run {c c' : Compiler} {tree : FileTree} {list : List Value}
    {directory : String} {sets : List TestSet} (hnames : (Entries.keys c.bindings).Nodup)
    (himports : ∀ node ∈ list, node.nodeKey? ≠ some "import")
    (hstep : ∃ node ∈ list, node.IsStep)
    (h : c.compile tree (.array list) directory = (.ok sets, c')) :
    ∃ s, sets = [s] ∧ ∀ (policy : RetryPolicy) (env : Environment) (t : Transport σ)
      (w : World σ),
      let run := (s.sequential.run policy env).run t w
      (Interpreter.interpret c.registry policy env c.startConfig list).run t w =
        (run.1.map fun o => .ok ⟨o.context, o.results, o.stoppedEarly⟩, run.2) := by
  obtain ⟨d, hd, rfl⟩ := compile_of_no_import himports h
  obtain ⟨seed, hseed, hwalk⟩ := Interpreter.walk_newContext rfl rfl
    (distinctNames_startConfig hnames) hstep hd
  have himported : d.imported = [] := Draft.imported_addNodes hd
  refine ⟨⟨d.steps, seed, none⟩, ?_, fun policy env t w => ?_⟩
  · rw [Draft.sets, hseed, himported]
    rfl
  · rw [TestSet.run_sequential, Interpreter.interpret, hwalk policy env]
    simp only [Program.run_bind, Program.run_pure]
    rcases (TestSet.runSteps policy d.steps ⟨seed.newContext env, [], false⟩).run t w with
      ⟨_ | p, u⟩ <;> rfl

/-- A document that rebinds a variable between two addresses. -/
def rebased : List Value :=
  [.object [("config", .object [("variable_binds", .object [("host", .string "a")])])],
    .object [("url", .string "http://\x7b\x7bhost\x7d\x7d/")],
    .object [("config", .object [("variable_binds", .object [("host", .string "b")])])],
    .object [("url", .string "http://\x7b\x7bhost\x7d\x7d/")]]

/-- The compiler of the standard declarations compiles `rebased` to one set, which runs as the
document is carried out. -/
theorem interpret_rebased :
    let c : Compiler := { registry := .builtins }
    (Entries.keys c.bindings).Nodup ∧ (∀ node ∈ rebased, node.nodeKey? ≠ some "import") ∧
      (∃ node ∈ rebased, node.IsStep) ∧
      ∃ s, (c.compile (.empty "/") (.array rebased) "/").1.toOption = some [s] ∧
        ∀ (policy : RetryPolicy) (env : Environment) (t : Transport Unit) (w : World Unit),
          let run := (s.sequential.run policy env).run t w
          (Interpreter.interpret c.registry policy env c.startConfig rebased).run t w =
            (run.1.map fun o => .ok ⟨o.context, o.results, o.stoppedEarly⟩, run.2) := by
  intro c
  have hnames : (Entries.keys c.bindings).Nodup := List.nodup_nil
  have himports : ∀ node ∈ rebased, node.nodeKey? ≠ some "import" := by decide +kernel
  have hstep : ∃ node ∈ rebased, node.IsStep := by decide +kernel
  have hok : (c.compile (.empty "/") (.array rebased) "/").1.toBool = true := by decide +kernel
  refine ⟨hnames, himports, hstep, ?_⟩
  rcases hc : c.compile (.empty "/") (.array rebased) "/" with ⟨e | sets, c'⟩
  · rw [hc] at hok
    cases hok
  · obtain ⟨s, rfl, hrun⟩ := interpret_eq_run hnames himports hstep hc
    exact ⟨s, rfl, hrun⟩

end Compiler

end HttpSuite
