import HttpSuite.Proofs.Failures
import HttpSuite.Proofs.Run.Answering
import HttpSuite.Proofs.Variables
import HttpSuite.Run.Runner

/-!
# When tests side by side are tests in order

A set whose steps count as independent may have its tests prepared all together, sent side by side
and judged at the end.  Against a transport that answers from what is sent, that run and the run in
order prepare the same requests and end in the same context.  They differ in one place: in order a
reply is judged in the context that the preparation of its own test left, side by side in the one
that all preparations left.

`Prepared` is a test with its request and the context that its preparation left, and
`TestSet.VerdictsStand` says that no validator can tell the two contexts apart.  The main statement,
`TestSet.run_eq_sequential_iff`, is that this is exactly when the two runs have one outcome, or both
break off, against every such transport.  It holds when no test after the first binds variables; a
set may count as independent and bind them, and then a later binding can change the verdict of an
earlier test.
-/

namespace HttpSuite

variable {σ : Type}

/-! ## The value of one test -/

namespace Test

variable (reply : Exchange → Option Reply) (policy : RetryPolicy) (t : Test) (config : Config)
  {context left : Context}

theorem value_run_of_error {f : Failure} (h : t.prepare.run.run context = (.error f, left)) :
    (t.run policy config context).value reply = some (.failed t t.url f, left) := by
  rw [run, h]
  simp only [Program.value_bind, Program.value_pure, Program.value_notes, Option.bind_some]

theorem value_run_of_ok {request : Request} (h : t.prepare.run.run context = (.ok request, left)) :
    (t.run policy config context).value reply =
      (reply (config.exchange policy request)).map fun r =>
        ((t.judge config request r left).result, (t.judge config request r left).context) := by
  rw [run, h, Option.map_eq_bind]
  cases config.interactive <;>
    simp only [if_true, Bool.false_eq_true, if_false, Program.value_bind, Program.value_perform,
      Program.value_pure, Program.value_notes, Option.bind_some] <;>
    rfl

end Test

/-! ## Prepared tests -/

/-- A test of a run with its request, or why there is none, and the context that its preparation
left. -/
structure Prepared where
  test : Test
  config : Config
  request : Except Failure Request
  left : Context

namespace Prepared

/-- Prepares tests in order, each in the context that the one before it left. -/
def all : List (Test × Config) → Context → List Prepared
  | [], _ => []
  | (t, config) :: rest, context =>
    ⟨t, config, (t.prepare.run.run context).1, (t.prepare.run.run context).2⟩ ::
      all rest (t.prepare.run.run context).2

/-- The reply to a prepared test, or none if it has no request; nothing where its exchange has no
reply. -/
def reply? (reply : Exchange → Option Reply) (policy : RetryPolicy) (p : Prepared) :
    Option (Option Reply) :=
  Option.mapM reply (p.config.exchange? policy p.request)

/-- The judgement of a prepared test whose reply is judged in a context. -/
def judge (p : Prepared) (reply : Option Reply) (context : Context) : Judgement :=
  match p.request, reply with
  | .ok request, some reply => p.test.judge p.config request reply context
  | .error failure, _ => ⟨.failed p.test p.test.url failure, context, []⟩
  | .ok request, none =>
    let failure : Failure := { kind := .testException, message := "Request was not dispatched" }
    ⟨.failed p.test request.url failure, context, []⟩

/-- The results of prepared tests whose replies are judged each in its context. -/
def results (prepared : List Prepared) (replies : List (Option Reply))
    (context : Prepared → Context) : List TestResult :=
  (prepared.zip replies).map fun x => (x.1.judge x.2 (context x.1)).result

theorem map_test_all (tests : List (Test × Config)) (context : Context) :
    (all tests context).map (fun p => (p.test, p.config)) = tests := by
  induction tests generalizing context with
  | nil => rfl
  | cons x rest ih => rw [all, List.map_cons, ih]

theorem map_request_all (tests : List (Test × Config)) (context : Context) :
    (all tests context).map request = (TestSet.prepareAll tests context).1 := by
  induction tests generalizing context with
  | nil => rfl
  | cons x rest ih =>
    rw [all, List.map_cons, ih, TestSet.prepareAll]
    rfl

theorem zip_prepareAll (tests : List (Test × Config)) (context : Context) :
    tests.zip (TestSet.prepareAll tests context).1 =
      (all tests context).map fun q => ((q.test, q.config), q.request) := by
  rw [← map_request_all]
  nth_rewrite 1 [← map_test_all tests context]
  rw [List.zip_map']

theorem zip_zip_prepareAll (tests : List (Test × Config)) (context : Context)
    (replies : List (Option Reply)) :
    tests.zip ((TestSet.prepareAll tests context).1.zip replies) =
      ((all tests context).zip replies).map fun x => ((x.1.test, x.1.config), x.1.request, x.2) := by
  induction tests generalizing context replies with
  | nil => rfl
  | cons x rest ih =>
    cases replies with
    | nil => rfl
    | cons r replies => exact congrArg _ (ih (x.1.prepare.run.run context).2 replies)

theorem mem_tests_of_mem_all {tests : List (Test × Config)} {context : Context} {p : Prepared}
    (h : p ∈ all tests context) : (p.test, p.config) ∈ tests := by
  rw [← map_test_all tests context]
  exact List.mem_map_of_mem h

end Prepared

/-! ## Independent tests -/

namespace Test

/-- A test that writes to the context at most what it binds itself, ends no run and waits for
nothing: what a set that counts as independent asks of each test. -/
structure IsIndependent (t : Test) (config : Config) : Prop where
  interactive : config.interactive = false
  extractorsBefore : t.extractorsBefore = []
  extractorsAfter : t.extractorsAfter = []
  generatorBinds : t.generatorBinds = []
  stopOnFailure : t.stopOnFailure = false
  delay : t.delay = none

theorem IsIndependent.judge_context {t : Test} {config : Config} (h : t.IsIndependent config)
    (request : Request) (reply : Reply) (context : Context) :
    (t.judge config request reply context).context = context := by
  cases reply with
  | error e => rfl
  | ok response =>
    rw [judge, check, h.extractorsAfter]
    cases t.rejections response context <;> rfl

theorem IsIndependent.judge_failures {t : Test} {config : Config} (h : t.IsIndependent config)
    (request : Request) (response : Response) (context : Context) :
    (t.judge config request (.ok response) context).result.failures =
      t.rejections response context := by
  rw [judge, check, h.extractorsAfter]
  cases t.rejections response context <;> rfl

/-- Only the rejections matter to the result of an independent test. -/
theorem IsIndependent.judge_result_eq {t : Test} {config : Config} (h : t.IsIndependent config)
    {request : Request} {response : Response} {c d : Context}
    (hr : t.rejections response c = t.rejections response d) :
    (t.judge config request (.ok response) c).result =
      (t.judge config request (.ok response) d).result := by
  rw [judge, judge, check, check, h.extractorsAfter, hr]
  cases t.rejections response d <;> rfl

/-- An independent test that binds no variables prepares its request in one pass. -/
theorem IsIndependent.sameVariables_prepare {t : Test} {config : Config}
    (h : t.IsIndependent config) (hb : t.variableBinds = []) (context : Context) :
    context.SameVariables (t.prepare.run.run context).2 := by
  have hp : t.prepare = Preparation.pass t.resolveRequest := by
    rw [prepare, hb, h.generatorBinds, h.extractorsBefore]
    rfl
  rw [hp, Preparation.run_pass]
  exact context.sameVariables_pass t.keepsVariables_resolveRequest

end Test

theorem Prepared.judge_context {p : Prepared} (h : p.test.IsIndependent p.config)
    (reply : Option Reply) (context : Context) : (p.judge reply context).context = context := by
  unfold judge
  split
  · exact h.judge_context _ _ _
  · rfl
  · rfl

/-! ## The two runs -/

namespace TestSet

variable (reply : Exchange → Option Reply) (policy : RetryPolicy)

/-- What a run comes to after a test: it ends, or goes on with what the test added. -/
theorem value_runSteps_test (t : Test) (config : Config) (rest : List Step) (p : Progress) :
    (runSteps policy (.test t config :: rest) p).value reply =
      ((t.run policy config p.context).value reply).bind fun r =>
        if !r.1.passed && t.stopOnFailure then some { p.add r.1 r.2 with stoppedEarly := true }
        else (runSteps policy rest (p.add r.1 r.2)).value reply := by
  rw [runSteps, Program.value_bind]
  refine congrArg _ (funext fun ⟨result, context⟩ => ?_)
  cases hstop : !result.passed && t.stopOnFailure <;> cases t.delay <;>
    simp only [hstop, if_true, Bool.false_eq_true, if_false, Program.value_bind,
      Program.value_pure, Program.value_notes, Option.bind_some]
  all_goals rfl

theorem prepareAll_cons (t : Test) (config : Config) (rest : List (Test × Config))
    (context : Context) :
    prepareAll ((t, config) :: rest) context =
      ((t.prepare.run.run context).1 :: (prepareAll rest (t.prepare.run.run context).2).1,
        (prepareAll rest (t.prepare.run.run context).2).2) := rfl

/-- An independent test adds its result in the context that its preparation left. -/
theorem value_run_independent {t : Test} {config : Config} (h : t.IsIndependent config)
    (context : Context) :
    let q : Prepared :=
      ⟨t, config, (t.prepare.run.run context).1, (t.prepare.run.run context).2⟩
    (t.run policy config context).value reply =
      (q.reply? reply policy).map fun r => ((q.judge r q.left).result, q.left) := by
  rcases hp : t.prepare.run.run context with ⟨request, left⟩
  cases request with
  | ok request =>
    rw [t.value_run_of_ok reply policy config hp]
    simp only [h.judge_context, Prepared.reply?, Config.exchange?, Option.mapM_some]
    cases reply (config.exchange policy request) <;> rfl
  | error f => exact t.value_run_of_error reply policy config hp

/-- **Independent tests in order**: every reply is judged where its own preparation left off. -/
theorem value_runSteps_independent {tests : List (Test × Config)}
    (h : ∀ x ∈ tests, x.1.IsIndependent x.2) (p : Progress) :
    (runSteps policy (tests.map fun x => .test x.1 x.2) p).value reply =
      ((Prepared.all tests p.context).mapM (Prepared.reply? reply policy)).map fun replies =>
        { p with
          context := (prepareAll tests p.context).2
          results := p.results ++
            Prepared.results (Prepared.all tests p.context) replies Prepared.left } := by
  induction tests generalizing p with
  | nil =>
    simp only [List.map_nil, runSteps, Prepared.all, List.mapM_nil, prepareAll]
    exact congrArg some (congrArg (Progress.mk p.context · p.stoppedEarly) (List.append_nil _).symm)
  | cons x rest ih =>
    obtain ⟨t, config⟩ := x
    have ht : t.IsIndependent config := h (t, config) (List.mem_cons_self ..)
    rw [List.map_cons, value_runSteps_test, value_run_independent reply policy ht, Prepared.all,
      List.mapM_cons]
    dsimp only
    cases Prepared.reply? reply policy
        ⟨t, config, (t.prepare.run.run p.context).1, (t.prepare.run.run p.context).2⟩ with
    | none => rfl
    | some r =>
      rw [Option.map_some, Option.bind_some, ht.stopOnFailure, Bool.and_false,
        if_neg Bool.false_ne_true, ih fun y hy => h y (List.mem_cons_of_mem _ hy)]
      dsimp only [Progress.add]
      rw [prepareAll_cons]
      cases (Prepared.all rest (t.prepare.run.run p.context).2).mapM
          (Prepared.reply? reply policy) with
      | none => rfl
      | some replies =>
        rw [Option.map_some, List.append_assoc]
        rfl

/-- What judging comes to after one prepared test. -/
theorem value_judgeAll_cons (q : Prepared) (r : Option Reply)
    (rest : List ((Test × Config) × Except Failure Request × Option Reply)) (p : Progress) :
    (judgeAll (((q.test, q.config), q.request, r) :: rest) p).value reply =
      (judgeAll rest (p.add (q.judge r p.context).result
        (q.judge r p.context).context)).value reply := by
  obtain ⟨t, config, request, left⟩ := q
  cases request <;> cases r <;>
    simp only [judgeAll, Program.value_bind, Program.value_notes, Option.bind_some, Prepared.judge]

/-- What judging comes to, for tests whose judgement leaves the context alone. -/
theorem value_judgeAll_independent {prepared : List Prepared}
    (h : ∀ q ∈ prepared, q.test.IsIndependent q.config) (replies : List (Option Reply))
    (p : Progress) :
    (judgeAll ((prepared.zip replies).map fun x => ((x.1.test, x.1.config), x.1.request, x.2))
        p).value reply =
      some { p with results := p.results ++
          Prepared.results prepared replies fun _ => p.context } := by
  induction prepared generalizing replies p with
  | nil => exact congrArg some (congrArg (Progress.mk p.context · p.stoppedEarly)
      (List.append_nil _).symm)
  | cons q rest ih =>
    cases replies with
    | nil => exact congrArg some (congrArg (Progress.mk p.context · p.stoppedEarly)
        (List.append_nil _).symm)
    | cons r replies =>
      have hq := h q (List.mem_cons_self ..)
      rw [List.zip_cons_cons, List.map_cons, value_judgeAll_cons, Prepared.judge_context hq,
        ih fun x hx => h x (List.mem_cons_of_mem _ hx)]
      dsimp only [Progress.add]
      rw [List.append_assoc]
      rfl

/-- **Independent tests side by side**: every reply is judged where the last preparation left
off. -/
theorem value_runParallel {tests : List (Test × Config)}
    (h : ∀ x ∈ tests, x.1.IsIndependent x.2) (p : Progress) :
    (runParallel policy tests p).value reply =
      ((Prepared.all tests p.context).mapM (Prepared.reply? reply policy)).map fun replies =>
        { p with
          context := (prepareAll tests p.context).2
          results := p.results ++ Prepared.results (Prepared.all tests p.context) replies
            fun _ => (prepareAll tests p.context).2 } := by
  have hprepared : ∀ q ∈ Prepared.all tests p.context, q.test.IsIndependent q.config :=
    fun q hq => h _ (Prepared.mem_tests_of_mem_all hq)
  have hexchanges : ((tests.zip (prepareAll tests p.context).1).map fun x =>
      x.1.2.exchange? policy x.2).mapM (Option.mapM reply) =
        (Prepared.all tests p.context).mapM (Prepared.reply? reply policy) := by
    rw [Prepared.zip_prepareAll, List.map_map, List.mapM_map]
    rfl
  simp only [runParallel, Program.value_bind, Program.value_performAll]
  rw [hexchanges, Option.map_eq_bind]
  refine congrArg _ (funext fun replies => ?_)
  rw [Prepared.zip_zip_prepareAll]
  exact value_judgeAll_independent reply hprepared replies _

/-! ## One outcome -/

theorem isIndependent_cons {step : Step} {steps : List Step} {config : Config}
    {source : Option String} (h : isIndependent ⟨step :: steps, config, source⟩ = true) :
    (∃ t c, step = .test t c ∧ t.IsIndependent c) ∧
      isIndependent ⟨steps, config, source⟩ = true := by
  rw [isIndependent, List.all_cons, Bool.and_eq_true] at h
  refine ⟨?_, h.2⟩
  cases step with
  | operation op => exact absurd h.1 (by simp)
  | configure change => exact absurd h.1 (by simp)
  | test t c =>
    have ht := h.1
    simp only [Test.writesContext, Bool.and_eq_true, Bool.not_eq_true', Bool.or_eq_false_iff,
      Bool.not_eq_false', List.isEmpty_iff, Option.isNone_iff_eq_none] at ht
    obtain ⟨⟨⟨hi, ⟨hb, ha⟩, hg⟩, hs⟩, hd⟩ := ht
    exact ⟨t, c, rfl, hi, hb, ha, hg, hs, hd⟩

/-- A set that counts as independent consists of independent tests. -/
theorem steps_eq_of_isIndependent {s : TestSet} (h : s.isIndependent = true) :
    s.steps = s.tests.map (fun x => .test x.1 x.2) ∧ ∀ x ∈ s.tests, x.1.IsIndependent x.2 := by
  obtain ⟨steps, config, source⟩ := s
  induction steps with
  | nil => exact ⟨rfl, fun x hx => nomatch hx⟩
  | cons step steps ih =>
    obtain ⟨⟨t, c, rfl, ht⟩, hrest⟩ := isIndependent_cons h
    obtain ⟨hsteps, hmem⟩ := ih hrest
    refine ⟨congrArg (Step.test t c :: ·) hsteps, fun x hx => ?_⟩
    rcases List.mem_cons.mp hx with rfl | hx
    · exact ht
    · exact hmem x hx

/-- No validator can tell the context that the preparation of its own test left from the one that
the preparations of all tests left. -/
def VerdictsStand (s : TestSet) (env : Environment) : Prop :=
  ∀ p ∈ Prepared.all s.tests (s.config.newContext env), ∀ request, p.request = .ok request →
    ∀ response, p.test.rejections response p.left =
      p.test.rejections response (prepareAll s.tests (s.config.newContext env)).2

theorem value_run_parallel {s : TestSet} (hp : s.config.testParallel = true)
    (hi : s.isIndependent = true) (env : Environment) :
    (s.run policy env).value reply =
      ((Prepared.all s.tests (s.config.newContext env)).mapM (Prepared.reply? reply policy)).map
        fun replies => ⟨s.name,
          Prepared.results (Prepared.all s.tests (s.config.newContext env)) replies
            fun _ => (prepareAll s.tests (s.config.newContext env)).2,
          (prepareAll s.tests (s.config.newContext env)).2, false, s.config.skipTermColors⟩ := by
  obtain ⟨-, htests⟩ := steps_eq_of_isIndependent hi
  simp only [run, hp, hi, Bool.and_self, if_true, Program.value_bind, Program.value_pure,
    value_runParallel reply policy htests, List.nil_append]
  cases (Prepared.all s.tests (s.config.newContext env)).mapM (Prepared.reply? reply policy) <;> rfl

theorem value_run_sequential {s : TestSet} (hi : s.isIndependent = true) (env : Environment) :
    (s.sequential.run policy env).value reply =
      ((Prepared.all s.tests (s.config.newContext env)).mapM (Prepared.reply? reply policy)).map
        fun replies => ⟨s.name,
          Prepared.results (Prepared.all s.tests (s.config.newContext env)) replies Prepared.left,
          (prepareAll s.tests (s.config.newContext env)).2, false, s.config.skipTermColors⟩ := by
  obtain ⟨hsteps, htests⟩ := steps_eq_of_isIndependent hi
  have hconfig : s.sequential.config.testParallel = false := rfl
  have hsame : s.sequential.steps = s.tests.map (fun x => .test x.1 x.2) := hsteps
  have hcontext : s.sequential.config.newContext env = s.config.newContext env := rfl
  simp only [run, hconfig, hcontext, Bool.false_and, Bool.false_eq_true, if_false,
    Program.value_bind, Program.value_pure, hsame,
    value_runSteps_independent reply policy htests, List.nil_append]
  cases (Prepared.all s.tests (s.config.newContext env)).mapM (Prepared.reply? reply policy) <;> rfl

/-- The two runs have one outcome, or both break off, where every result is the same in both
contexts. -/
theorem run_eq_sequential_of_results {s : TestSet} (hp : s.config.testParallel = true)
    (hi : s.isIndependent = true) (env : Environment) {t : Transport σ}
    {answer : Request → SendOptions → Delivery} (ht : t.Answers answer) (w : World σ) :
    ((s.run policy env).run t w).1.toOption =
        ((s.sequential.run policy env).run t w).1.toOption ↔
      ∀ replies, (Prepared.all s.tests (s.config.newContext env)).mapM
          (Prepared.reply? (Exchange.answered answer) policy) = some replies →
        ∀ x ∈ (Prepared.all s.tests (s.config.newContext env)).zip replies,
          (x.1.judge x.2 (prepareAll s.tests (s.config.newContext env)).2).result =
            (x.1.judge x.2 x.1.left).result := by
  rw [Program.run_value ht, Program.run_value ht, value_run_parallel _ policy hp hi,
    value_run_sequential _ policy hi]
  cases (Prepared.all s.tests (s.config.newContext env)).mapM
      (Prepared.reply? (Exchange.answered answer) policy) with
  | none => exact ⟨fun _ _ h => (nomatch h), fun _ => rfl⟩
  | some replies =>
    simp only [Option.map_some, Option.some.injEq, Outcome.mk.injEq, true_and, and_true,
      forall_eq', Prepared.results, List.map_inj_left]

theorem rejections_eq_of_sameVariables {c d : Context} (h : c.SameVariables d) (t : Test)
    (response : Response) : t.rejections response c = t.rejections response d := by
  have hv : Test.rejection response c = Test.rejection response d := by
    funext v
    rw [Test.rejection, Test.rejection, h.validate_eq]
  rw [Test.rejections, Test.rejections, hv]

/-- Independent tests that bind no variables leave all variables as they were, each of them and all
together. -/
theorem sameVariables_of_no_binds {tests : List (Test × Config)}
    (hi : ∀ x ∈ tests, x.1.IsIndependent x.2) (hb : ∀ x ∈ tests, x.1.variableBinds = [])
    (context : Context) :
    (∀ q ∈ Prepared.all tests context, context.SameVariables q.left) ∧
      context.SameVariables (prepareAll tests context).2 := by
  induction tests generalizing context with
  | nil => exact ⟨fun q hq => (nomatch hq), .refl context⟩
  | cons x rest ih =>
    obtain ⟨t, config⟩ := x
    have ht : t.IsIndependent config := hi (t, config) (List.mem_cons_self ..)
    have hleft := ht.sameVariables_prepare (hb (t, config) (List.mem_cons_self ..)) context
    obtain ⟨hall, hlast⟩ := ih (fun y hy => hi y (List.mem_cons_of_mem _ hy))
      (fun y hy => hb y (List.mem_cons_of_mem _ hy)) (t.prepare.run.run context).2
    refine ⟨fun q hq => ?_, hleft.trans hlast⟩
    rcases List.mem_cons.mp hq with rfl | hq
    · exact hleft
    · exact hleft.trans (hall q hq)

/-- Only a binding of a later test can be seen too early. -/
theorem verdictsStand_of_no_later_binds {s : TestSet} (hi : s.isIndependent = true)
    (hb : ∀ x ∈ s.tests.tail, x.1.variableBinds = []) (env : Environment) :
    s.VerdictsStand env := by
  obtain ⟨-, htests⟩ := steps_eq_of_isIndependent hi
  intro q hq request _ response
  refine rejections_eq_of_sameVariables ?_ _ _
  cases hs : s.tests with
  | nil =>
    rw [hs] at hq
    exact nomatch hq
  | cons x rest =>
    rw [hs] at hq hb htests
    obtain ⟨hall, hlast⟩ := sameVariables_of_no_binds
      (fun y hy => htests y (List.mem_cons_of_mem _ hy)) hb
      (x.1.prepare.run.run (s.config.newContext env)).2
    rcases List.mem_cons.mp hq with rfl | hq
    · exact hlast
    · exact (hall q hq).symm.trans hlast

/-- Every reply to prepared tests is the response that a transport gives to every request. -/
theorem mapM_reply?_constant (response : Response) (prepared : List Prepared) :
    prepared.mapM (Prepared.reply? (Exchange.answered fun _ _ => ⟨0, .ok response⟩) policy) =
      some (prepared.map fun q =>
        (q.config.exchange? policy q.request).map fun _ => .ok response) := by
  refine mapM_eq_some_iff.mpr (List.forall₂_map_right_iff.mpr (List.forall₂_same.mpr ?_))
  intro q _
  have hanswered : ∀ x : Exchange,
      x.answered (fun _ _ => ⟨0, .ok response⟩) = some (.ok response) := by
    intro x
    have hcounted : x.counted ⟨0, .ok response⟩ = .ok response := if_pos (Nat.zero_le _)
    have hsequel : x.sequel 0 (x.counted ⟨0, .ok response⟩) = .ended (.ok (.ok response)) := by
      rw [hcounted]
      rfl
    rw [Exchange.answered, Exchange.settled, Exchange.settledFrom_of_ended hsequel]
    rfl
  rw [Prepared.reply?]
  cases q.config.exchange? policy q.request with
  | none => rfl
  | some x =>
    rw [Option.mapM_some, hanswered]
    rfl

/-- **Side by side and in order are one, exactly where no verdict depends on a later preparation.**
The set counts as independent and asks for its tests side by side; the transport answers from what
is sent, and nothing else is asked of it.  Where an exchange breaks off, neither run has an outcome.
In particular the two are one where no test after the first binds variables. -/
theorem run_eq_sequential_iff (s : TestSet) (hp : s.config.testParallel = true)
    (hi : s.isIndependent = true) (env : Environment) :
    ((∀ (σ : Type) (t : Transport σ), t.IsStateless → ∀ w : World σ,
        ((s.run policy env).run t w).1.toOption =
          ((s.sequential.run policy env).run t w).1.toOption) ↔
      s.VerdictsStand env) ∧
    ((∀ x ∈ s.tests.tail, x.1.variableBinds = []) → s.VerdictsStand env) := by
  obtain ⟨-, htests⟩ := steps_eq_of_isIndependent hi
  refine ⟨⟨fun h q hq request hr response => ?_, fun h σ t ht w => ?_⟩,
    fun hb => verdictsStand_of_no_later_binds hi hb env⟩
  · -- a transport that gives this response to every request at once
    have hone := h Unit (Transport.constant ⟨0, .ok response⟩)
      (Transport.isStateless_constant _) (World.start ())
    have hresults := (run_eq_sequential_of_results policy hp hi env
      (Transport.constant_answers _) _).mp hone _ (mapM_reply?_constant policy response _)
    have hmem : (q, some (.ok response)) ∈ (Prepared.all s.tests (s.config.newContext env)).zip
        ((Prepared.all s.tests (s.config.newContext env)).map fun q =>
          (q.config.exchange? policy q.request).map fun _ => (.ok response : Reply)) := by
      nth_rewrite 1 [← List.map_id (Prepared.all s.tests (s.config.newContext env))]
      rw [List.zip_map', List.mem_map]
      refine ⟨q, hq, ?_⟩
      rw [hr]
      rfl
    have hq' : q.test.IsIndependent q.config := htests _ (Prepared.mem_tests_of_mem_all hq)
    have hfailures := congrArg TestResult.failures (hresults _ hmem)
    simp only [Prepared.judge, hr, hq'.judge_failures] at hfailures
    exact hfailures.symm
  · obtain ⟨answer, ht⟩ := ht
    refine (run_eq_sequential_of_results policy hp hi env ht w).mpr fun replies _ x hx => ?_
    obtain ⟨q, r⟩ := x
    have hq : q ∈ Prepared.all s.tests (s.config.newContext env) := (List.of_mem_zip hx).1
    have hq' : q.test.IsIndependent q.config := htests _ (Prepared.mem_tests_of_mem_all hq)
    cases hr : q.request with
    | error f => simp only [Prepared.judge, hr]
    | ok request =>
      simp only [Prepared.judge, hr]
      cases r with
      | none => rfl
      | some reply =>
        cases reply with
        | error e => rfl
        | ok response => exact (hq'.judge_result_eq (h q hq request hr response)).symm

/-! ### A set whose verdict depends on the order -/

/-- Two tests that bind one variable to different values; the first asks that it be true. -/
def rebinding : TestSet where
  steps := [
    .test { Test.ofUrl "http://h/1" with
      variableBinds := [("ready", .bool true)]
      validators := [.assertTrue (.constant (.string "\x7b\x7bready\x7d\x7d")) none] } {},
    .test { Test.ofUrl "http://h/2" with variableBinds := [("ready", .bool false)] } {}]
  config := { testParallel := true }
  source := none

/-- In order both tests of `rebinding` pass.  Side by side the first one is judged with the value
that the second one binds, and fails. -/
theorem rebinding_passes_only_in_order :
    let t := Transport.constant ⟨0, .ok ⟨200, [], []⟩⟩
    rebinding.config.testParallel = true ∧ rebinding.isIndependent = true ∧ t.IsStateless ∧
    ((rebinding.run {} []).run t (World.start ())).1.toOption.map
      (fun o => o.results.map (·.passed)) = some [false, true] ∧
    ((rebinding.sequential.run {} []).run t (World.start ())).1.toOption.map
      (fun o => o.results.map (·.passed)) = some [true, true] := by
  exact ⟨rfl, rfl, Transport.isStateless_constant _, by decide +kernel, by decide +kernel⟩

/-- The same first test with a second one that binds nothing. -/
def bindingOnce : TestSet :=
  { rebinding with steps := rebinding.steps.take 1 ++ [.test (Test.ofUrl "http://h/2") {}] }

theorem bindingOnce_verdictsStand :
    let t := Transport.constant ⟨0, .ok ⟨200, [], []⟩⟩
    bindingOnce.config.testParallel = true ∧ bindingOnce.isIndependent = true ∧
      bindingOnce.VerdictsStand [] ∧
      ((bindingOnce.run {} []).run t (World.start ())).1.toOption =
        ((bindingOnce.sequential.run {} []).run t (World.start ())).1.toOption ∧
      ((bindingOnce.run {} []).run t (World.start ())).1.toOption.isSome = true := by
  intro t
  have h := run_eq_sequential_iff {} bindingOnce rfl rfl []
  have hbinds : ∀ x ∈ bindingOnce.tests.tail, x.1.variableBinds = [] := by
    intro x hx
    rcases List.mem_singleton.mp hx with rfl
    rfl
  exact ⟨rfl, rfl, h.2 hbinds,
    h.1.mpr (h.2 hbinds) Unit _ (Transport.isStateless_constant _) (World.start ()),
    by decide +kernel⟩

end TestSet

end HttpSuite
