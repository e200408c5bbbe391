import HttpSuite.Proofs.Run.Turns
import HttpSuite.Run.Report

/-!
# Sets side by side

A run of sets side by side shares the clock and the transport among them, and nothing else: every
set starts its own context and its own generators.  Against a transport that answers from what is
sent, the clock and the transport make no difference either.

The main statement is `RunOptions.run_concurrent`.  In whatever order the steps, the retries and the
pauses of the sets come, a set that has finished has the outcome that it has alone, one that has
broken off breaks off alone, and no order is a dead end.  The run side by side is one of these
orders, so it gives the report of the run in order.  For the last part the number of instants that a
run is given has to be enough (`TestSet.within_run`).
-/

namespace HttpSuite

variable {σ : Type}

/-! ## The instants of a set -/

open Program (Within)

/-- The instants that a step is given. -/
def Step.turns : Step → Nat
  | .test _ config => 2 * config.retries + 4
  | _ => 2

theorem TestSet.turns_eq (s : TestSet) : s.turns = (s.steps.map Step.turns).sum := by
  rw [TestSet.turns, List.sum_eq_foldl, List.foldl_map]
  congr 1
  funext n step
  cases step <;> rfl

theorem Operation.within_run (op : Operation) (c : Context) : (op.run c).Within 1 := by
  cases op with
  | print message =>
    simp only [Operation.run]
    split <;> trivial
  | delay d => exact ⟨0, Nat.le_refl _, trivial⟩
  | bind bindings =>
    simp only [Operation.run]
    split <;> trivial

/-- A test waits for its exchange only. -/
theorem Test.within_run (policy : RetryPolicy) (t : Test) (config : Config) (c : Context) :
    (t.run policy config c).Within (2 * config.retries + 2) := by
  rw [Test.run]
  split
  · exact Program.within_notes_bind _ (Program.within_pure _ _)
  · rename_i request left _
    have hjudged : (Program.perform (config.exchange policy request) >>= fun reply => do
        Program.notes ((t.judge config request reply left).lines.map .line ++
          (t.judge config request reply left).result.notes)
        return ((t.judge config request reply left).result,
          (t.judge config request reply left).context)).Within (2 * config.retries + 2) :=
      (Program.within_perform _).bind
        (fun reply => Program.within_notes_bind _ (Program.within_pure _ 0)) (Nat.le_refl _)
    cases config.interactive with
    | false => exact hjudged
    | true => exact Program.within_notes_bind _ hjudged

namespace TestSet

variable (policy : RetryPolicy)

theorem within_runSteps (steps : List Step) (p : Progress) :
    (runSteps policy steps p).Within (steps.map Step.turns).sum := by
  induction steps generalizing p with
  | nil => trivial
  | cons step rest ih =>
    rw [List.map_cons, List.sum_cons]
    cases step with
    | operation op =>
      rw [runSteps]
      refine (op.within_run p.context).bind (fun r => ?_)
        (Nat.add_le_add_right (by decide : 1 ≤ 2) (rest.map Step.turns).sum)
      split
      · exact ih _
      · exact Program.within_notes_bind _ (ih _)
    | configure change => exact (ih _).mono (Nat.le_add_left _ _)
    | test t config =>
      rw [runSteps]
      refine (t.within_run policy config p.context).bind (n := 1 + (rest.map Step.turns).sum)
        (fun r => ?_) (by rw [Step.turns]; omega)
      dsimp only
      split
      · exact Program.within_notes_bind _ (Program.within_pure _ _)
      cases t.delay with
      | none => exact (ih _).mono (Nat.le_add_left _ _)
      | some d => exact (Program.within_pause d).bind (fun _ => ih _) (Nat.le_refl _)

theorem within_judgeAll
    (judged : List ((Test × Config) × Except Failure Request × Option Reply)) (p : Progress) :
    (judgeAll judged p).Within 0 := by
  induction judged generalizing p with
  | nil => trivial
  | cons x rest ih =>
    obtain ⟨⟨t, config⟩, request, reply⟩ := x
    cases request <;> cases reply <;> exact Program.within_notes_bind _ (ih _)

/-- Each test sends at most its own exchange. -/
theorem turnsAll_exchanges_le (tests : List (Test × Config))
    (requests : List (Except Failure Request)) :
    Exchange.turnsAll ((tests.zip requests).map fun x => x.1.2.exchange? policy x.2) ≤
      (tests.map fun x => Step.turns (.test x.1 x.2)).sum := by
  induction tests generalizing requests with
  | nil => exact Nat.le_refl 0
  | cons x tests ih =>
    cases requests with
    | nil => exact Nat.zero_le _
    | cons request requests =>
      have hrest := ih requests
      rw [List.zip_cons_cons, List.map_cons, List.map_cons, List.sum_cons]
      cases request with
      | error f => exact Nat.le_trans hrest (Nat.le_add_left _ _)
      | ok request =>
        refine Nat.add_le_add ?_ hrest
        change 2 * x.2.retries + 2 ≤ 2 * x.2.retries + 4
        omega

theorem turns_tests_le (steps : List Step) (config : Config) (source : Option String) :
    ((tests ⟨steps, config, source⟩).map fun x => Step.turns (.test x.1 x.2)).sum ≤
      (steps.map Step.turns).sum := by
  induction steps with
  | nil => exact Nat.le_refl 0
  | cons step rest ih =>
    cases step with
    | test t c => exact Nat.add_le_add_left ih _
    | operation op => exact Nat.le_trans ih (Nat.le_add_left _ _)
    | configure change => exact Nat.le_trans ih (Nat.le_add_left _ _)

/-- **A set is given enough instants**, whichever way it runs. -/
theorem within_run (s : TestSet) (env : Environment) : (s.run policy env).Within s.turns := by
  rw [turns_eq, run]
  dsimp only
  split
  · have hexchanges := Nat.le_trans (turnsAll_exchanges_le policy s.tests
      (prepareAll s.tests (s.config.newContext env)).1) (turns_tests_le s.steps s.config s.source)
    exact Within.bind ((Program.within_performAll _).bind (fun _ => within_judgeAll _ _) hexchanges)
      (fun p => Program.within_pure _ 0) (Nat.le_refl _)
  · exact (within_runSteps policy s.steps _).bind (fun p => Program.within_pure _ 0) (Nat.le_refl _)

end TestSet

/-! ## Runs of sets -/

namespace RunOptions

variable {t : Transport σ} {answer : Request → SendOptions → Delivery}

/-- Sets of which none has begun. -/
def waiting (o : RunOptions) (env : Environment) (sets : List TestSet) (now : Nat) :
    List (Program.Thread Outcome) :=
  (sets.map (TestSet.run o.retry env)).map (.asleep now)

/-- The outcome of each set alone, if none of them breaks off. -/
def outcomesAlone (o : RunOptions) (t : Transport σ) (env : Environment) (sets : List TestSet)
    (w : World σ) : Option (List Outcome) :=
  sets.mapM fun s => ((s.run o.retry env).run t w).1.toOption

theorem outcomesAlone_eq (ht : t.Answers answer) (o : RunOptions) (env : Environment)
    (sets : List TestSet) (w : World σ) :
    o.outcomesAlone t env sets w =
      (sets.map (TestSet.run o.retry env)).mapM (Program.value (Exchange.answered answer)) := by
  rw [List.mapM_map]
  exact congrArg (List.mapM · sets) (funext fun s => Program.run_value ht (s.run o.retry env) w)

theorem runInOrder_eq (ht : t.Answers answer) (o : RunOptions) (env : Environment)
    (sets : List TestSet) (w : World σ) :
    (runInOrder t o env sets w).1.toOption =
      (sets.map (TestSet.run o.retry env)).mapM (Program.value (Exchange.answered answer)) := by
  induction sets generalizing w with
  | nil => rfl
  | cons s rest ih =>
    rw [runInOrder, Ran.toOption_andThen, Program.run_value ht, List.map_cons, List.mapM_cons]
    refine congrArg _ (funext fun outcome => ?_)
    rw [Ran.toOption_andThen, ih]
    rfl

/-- A run gives a report of its outcomes, if there are any. -/
theorem run_eq_outcomes (o : RunOptions) (t : Transport σ) (env : Environment)
    (sets : List TestSet) (w : World σ) :
    (o.run t env sets w).1.toOption =
      (o.outcomes t env sets (begin t sets w)).1.toOption.map Report.ofOutcomes := by
  rw [run, Ran.toOption_andThen]
  exact Option.map_eq_bind.symm

theorem sum_turns_eq (sets : List TestSet) :
    (sets.map TestSet.turns).sum = sets.foldl (fun n s => n + s.turns) 0 := by
  rw [List.sum_eq_foldl, List.foldl_map]

theorem within_sets (o : RunOptions) (env : Environment) (sets : List TestSet) :
    List.Forall₂ Within (sets.map (TestSet.run o.retry env)) (sets.map TestSet.turns) :=
  List.forall₂_map_left_iff.mpr (List.forall₂_map_right_iff.mpr
    (List.forall₂_same.mpr fun s _ => s.within_run o.retry env))

/-- **No set sees another one.**  Let a transport answer from what is sent.  However the steps of
sets that run side by side interleave, a set that has come to its end has the outcome that it has
alone, started at any time and in any state of the transport, or breaks off alone as well; and the
rest can still go on until all have their outcomes or one has broken off.  The run that is carried
out is such an interleaving, and it gives the same report as the run in order: the outcomes that the
sets have alone, in their order, where none of them breaks off. -/
theorem run_concurrent (o : RunOptions) (env : Environment) (sets : List TestSet)
    {t : Transport σ} (ht : t.IsStateless) (w : World σ) :
    (∀ threads u, Program.Interleaving t (o.waiting env sets w.now, w) (threads, u) →
      List.Forall₂ (fun s thread => ∀ result, thread.result? = some result →
        ∀ v : World σ, result.toOption = ((s.run o.retry env).run t v).1.toOption) sets threads ∧
      ∃ final v, Program.Interleaving t (threads, u) (final, v) ∧ Program.Over final ∧
        (Program.Thread.results final).toOption = o.outcomesAlone t env sets w) ∧
    (∃ final u, Program.Interleaving t (o.waiting env sets w.now, w) (final, u) ∧
      Program.Over final ∧
      Program.together t (sets.foldl (fun n s => n + s.turns) 0)
          (sets.map (TestSet.run o.retry env)) w = (Program.Thread.results final, u)) ∧
    ({ o with concurrent := true }.run t env sets w).1.toOption =
      ({ o with concurrent := false }.run t env sets w).1.toOption ∧
    ({ o with concurrent := true }.run t env sets w).1.toOption.map Report.outcomes =
      o.outcomesAlone t env sets w := by
  obtain ⟨answer, ht⟩ := ht
  have hwithin := o.within_sets env sets
  have hsum := Nat.le_of_eq (sum_turns_eq sets)
  have hconcurrent : ({ o with concurrent := true }.run t env sets w).1.toOption =
      (o.outcomesAlone t env sets w).map Report.ofOutcomes := by
    rw [run_eq_outcomes, outcomesAlone_eq ht]
    exact congrArg _ (Program.together_eq ht hwithin hsum _)
  refine ⟨fun threads u h => ?_, ?_, ?_, ?_⟩
  · have hleads := Program.AllLead.interleaving ht h
      (Program.allLead_asleep (sets.map (TestSet.run o.retry env)) w.now)
    refine ⟨?_, ?_⟩
    · refine (List.forall₂_map_left_iff.mp hleads).imp ?_
      intro s thread hthread result hresult v
      rw [Program.run_value ht]
      exact hthread.toOption_eq hresult
    · obtain ⟨b, hb, hover⟩ := Program.exists_finish ht hleads
        (Program.within_of_interleaving h (Program.within_asleep hwithin w.now))
      refine ⟨b.1, b.2, hb, hover, ?_⟩
      rw [outcomesAlone_eq ht]
      exact (Program.AllLead.interleaving ht hb hleads).results_eq hover
  · exact Program.exists_together ht hwithin hsum w
  · rw [hconcurrent, run_eq_outcomes, outcomesAlone_eq ht]
    exact congrArg _ (runInOrder_eq ht { o with concurrent := false } env sets _).symm
  · rw [hconcurrent, Option.map_map]
    exact Option.map_id'

/-! ### Two sets of one configuration -/

/-- Two sets that inherit one generator, the first of which ends with its first test. -/
def sharing : List TestSet :=
  let counted (stopOnFailure : Bool) : Step := .test
    { Test.ofUrl "http://h/{{n}}" with
      generatorBinds := [("n", "numbers")], stopOnFailure := stopOnFailure } {}
  let config : Config := { generators := [("numbers", .sequence 1 1)] }
  [⟨[counted true, counted false], config, some "first"⟩,
    ⟨[counted false, counted false], config, some "second"⟩]

/-- Side by side and against a transport that finds nothing, the sets of `sharing` count each for
itself, and only the first ends early. -/
theorem sharing_concurrent :
    (Transport.constant ⟨3, .ok ⟨404, [], []⟩⟩).IsStateless ∧
    ({ concurrent := true : RunOptions }.run (Transport.constant ⟨3, .ok ⟨404, [], []⟩⟩) [] sharing
        (World.start ())).1.toOption.map
          (fun r => r.outcomes.map fun o => (o.name, o.results.map (·.url), o.stoppedEarly)) =
      some [("first", ["http://h/1"], true), ("second", ["http://h/1", "http://h/2"], false)] := by
  have h := run_concurrent {} [] sharing
    (Transport.isStateless_constant ⟨3, .ok ⟨404, [], []⟩⟩) (World.start ())
  refine ⟨Transport.isStateless_constant _, ?_⟩
  have hmap := congrArg (Option.map
    (List.map fun o : Outcome => (o.name, o.results.map (·.url), o.stoppedEarly))) h.2.2.2
  rw [Option.map_map] at hmap
  refine hmap.trans ?_
  decide +kernel

end RunOptions

end HttpSuite
