import HttpSuite.Proofs.Run.Pauses
import HttpSuite.Proofs.Run.Verdict

/-!
# Steps in order

A set that does not send its tests side by side carries out its steps one after another, each in the
context and the world that the one before it left.  A failing test that asks for it ends the run.
There is one more way to an end, and no results are left then: the exchange of a test breaks off.
Nothing else ends a run, whatever goes wrong with a test or an operation.

`StepRun` is a step that was carried out, with all that it left.  `StepRun.Chain` puts such steps
one after another, and `TestSet.Course` says besides which step is the last and why.  The main
statement, `TestSet.runsInOrder_or_breaksOff`, reads a run off its course.  Either there is an
outcome, and the chain is made of the first steps of the set, up to and including the first failing
test that asks for an end, or of all of them (`TestSet.RunsInOrder`).  Or a test breaks off, and the
chain is made of the steps before it (`TestSet.BreaksOff`).  The results, the context and the
requests of the run are those of the chain, and so a step that is not part of it leaves no trace.
-/

namespace HttpSuite

variable {σ : Type}

/-! ## What is sent -/

/-- Every attempt sends the request of the exchange, and there are at most as many as allowed. -/
theorem Exchange.sends_run (x : Exchange) (t : Transport σ) (w : World σ) :
    ∃ times : List Nat, times ≠ [] ∧ times.length ≤ x.retries + 1 ∧
      (x.run t w).2.sends = w.sends ++ times.map fun time => (x.request, x.options, time) := by
  obtain ⟨trace, last, hcourse, hsettles⟩ := exists_settles t x w
  refine ⟨trace.map Attempt.begun, mt List.map_eq_nil_iff.mp hcourse.ne_nil, ?_, ?_⟩
  · rw [List.length_map]
    exact hsettles.length_le
  · rw [hsettles.sends, List.map_map]
    rfl

/-- The attempts of a test that begins in a context: all send the request that the test prepares,
under its configuration.  There are none without a request, and with one at most as many as the
configuration allows. -/
def Test.Attempts (t : Test) (config : Config) (context : Context) (own : List Sending) : Prop :=
  match (t.prepare.run.run context).1 with
  | .error _ => own = []
  | .ok request => own ≠ [] ∧ own.length ≤ config.retries + 1 ∧ ∀ a ∈ own,
      a.1 = request ∧ a.2.1 = ⟨config.timeout, config.sslInsecure, config.verbose⟩

theorem Test.sends_run (policy : RetryPolicy) (t : Test) (config : Config) (context : Context)
    (tr : Transport σ) (w : World σ) :
    ∃ own, t.Attempts config context own ∧
      ((t.run policy config context).run tr w).2.sends = w.sends ++ own := by
  rcases hp : t.prepare.run.run context with ⟨f | request, left⟩
  · refine ⟨[], by rw [Attempts, hp], ?_⟩
    rw [t.run_of_error policy config context tr w hp, World.sends_noteAll, List.append_nil]
  · have hprompted : (t.prompted config w request).sends = w.sends := by
      unfold prompted
      split
      · exact World.sends_noteAll _ _
      · rfl
    obtain ⟨times, hne, hlength, hsends⟩ :=
      (config.exchange policy request).sends_run tr (t.prompted config w request)
    refine ⟨times.map fun time => (request, ⟨config.timeout, config.sslInsecure,
      config.verbose⟩, time), ?_, ?_⟩
    · rw [Attempts, hp]
      refine ⟨fun hnil => hne (List.map_eq_nil_iff.mp hnil), by rwa [List.length_map], ?_⟩
      intro a ha
      obtain ⟨time, -, rfl⟩ := List.mem_map.mp ha
      exact ⟨rfl, rfl⟩
    · rw [t.run_of_ok policy config context tr w hp, ← hprompted]
      refine Eq.trans ?_ hsends
      -- what is noted after the exchange sends nothing
      rcases (config.exchange policy request).run tr (t.prompted config w request) with
        ⟨_ | reply, u⟩
      · rfl
      · exact World.sends_noteAll _ _

/-- An operation always comes to its end, and sends nothing. -/
theorem Operation.exists_run (op : Operation) (context : Context) (tr : Transport σ)
    (w : World σ) :
    ∃ outcome left u, (op.run context).run tr w = (.ok (outcome, left), u) ∧ u.sends = w.sends := by
  cases op with
  | print message =>
    rw [run]
    split
    · exact ⟨_, _, _, rfl, w.sends_note _⟩
    · exact ⟨_, _, _, rfl, rfl⟩
  | delay d => exact ⟨_, _, _, rfl, rfl⟩
  | bind bindings =>
    rw [run]
    split <;> exact ⟨_, _, _, rfl, rfl⟩

/-! ## One step -/

/-- A step that was carried out: the context and the world where it began, the result that it added,
the context that it left, whether it ended the run, and the world in which the next step begins. -/
structure StepRun (σ : Type) where
  step : Step
  context : Context
  world : World σ
  result? : Option TestResult
  left : Context
  stops : Bool
  next : World σ

namespace StepRun

variable (policy : RetryPolicy) (tr : Transport σ)

/-- What a step does that comes to its end.  A test always has a result, an operation if it fails;
after a test there may be a pause. -/
inductive Done : StepRun σ → Prop where
  | stopped {t : Test} {config : Config} {c d : Context} {w u : World σ} {r : TestResult}
      (h : (t.run policy config c).run tr w = (.ok (r, d), u))
      (hstops : (!r.passed && t.stopOnFailure) = true) :
      Done ⟨.test t config, c, w, some r, d, true, u.note TestSet.stopNote⟩
  | test {t : Test} {config : Config} {c d : Context} {w u : World σ} {r : TestResult}
      (h : (t.run policy config c).run tr w = (.ok (r, d), u))
      (hgoes : (!r.passed && t.stopOnFailure) = false) :
      Done ⟨.test t config, c, w, some r, d, false,
        match t.delay with
        | some delay => u.wait delay.milliseconds
        | none => u⟩
  | operation {op : Operation} {c d : Context} {w u : World σ}
      (h : (op.run c).run tr w = (.ok (.ok (), d), u)) :
      Done ⟨.operation op, c, w, none, d, false, u⟩
  | failed {op : Operation} {c d : Context} {w u : World σ} {e : OperationError}
      (h : (op.run c).run tr w = (.ok (.error e, d), u)) :
      Done ⟨.operation op, c, w, some (op.failure e), d, false, u.noteAll (op.failure e).notes⟩
  | configured (change : Config.Change) (c : Context) (w : World σ) :
      Done ⟨.configure change, c, w, none, change.apply c, false, w⟩

/-- What a step sends: a test its own attempts, any other step nothing. -/
def Sends (x : StepRun σ) (own : List Sending) : Prop :=
  x.next.sends = x.world.sends ++ own ∧
    match x.step with
    | .test t config => t.Attempts config x.context own
    | _ => own = []

variable {policy tr} {x : StepRun σ}

theorem Done.exists_sends (h : x.Done policy tr) : ∃ own, x.Sends own := by
  cases h with
  | @stopped t config c d w u r h hstops =>
    obtain ⟨own, hown, hsends⟩ := t.sends_run policy config c tr w
    rw [h] at hsends
    exact ⟨own, (World.sends_note _ _).trans hsends, hown⟩
  | @test t config c d w u r h hgoes =>
    obtain ⟨own, hown, hsends⟩ := t.sends_run policy config c tr w
    rw [h] at hsends
    refine ⟨own, ?_, hown⟩
    rw [← hsends]
    dsimp only
    split
    · exact World.sends_wait _ _
    · rfl
  | @operation op c d w u h =>
    obtain ⟨_, _, _, hrun, hsends⟩ := op.exists_run c tr w
    cases h.symm.trans hrun
    exact ⟨[], hsends.trans (List.append_nil _).symm, rfl⟩
  | @failed op c d w u e h =>
    obtain ⟨_, _, _, hrun, hsends⟩ := op.exists_run c tr w
    cases h.symm.trans hrun
    exact ⟨[], (World.sends_noteAll _ _).trans (hsends.trans (List.append_nil _).symm), rfl⟩
  | configured change c w => exact ⟨[], (List.append_nil _).symm, rfl⟩

/-- A step that ends the run is a failing test that asks for it, and a test that goes on is none. -/
theorem Done.stops_iff (h : x.Done policy tr) : x.stops = true ↔
    ∃ t config r, x.step = .test t config ∧ x.result? = some r ∧ r.passed = false ∧
      t.stopOnFailure = true := by
  cases h with
  | stopped h hstops =>
    rw [Bool.and_eq_true, Bool.not_eq_true'] at hstops
    exact ⟨fun _ => ⟨_, _, _, rfl, rfl, hstops⟩, fun _ => rfl⟩
  | test h hgoes =>
    refine ⟨fun hf => (nomatch hf), fun ⟨t, config, r, hstep, hr, hfailed, hasks⟩ => ?_⟩
    cases hstep
    cases hr
    rw [hfailed, hasks] at hgoes
    cases hgoes
  | operation h => exact ⟨fun hf => (nomatch hf), fun ⟨_, _, _, hstep, _⟩ => nomatch hstep⟩
  | failed h => exact ⟨fun hf => (nomatch hf), fun ⟨_, _, _, hstep, _⟩ => nomatch hstep⟩
  | configured change c w =>
    exact ⟨fun hf => (nomatch hf), fun ⟨_, _, _, hstep, _⟩ => nomatch hstep⟩

/-- Which steps have results: every test, and the operations that fail, whose results are failed
ones in the group of operations. -/
theorem Done.result_spec (h : x.Done policy tr) :
    match x.step with
    | .test t config => ∃ r u, x.result? = some r ∧
        (t.run policy config x.context).run tr x.world = (.ok (r, x.left), u)
    | .operation op => ∃ outcome u,
        (op.run x.context).run tr x.world = (.ok (outcome, x.left), u) ∧
        match outcome with
        | .ok _ => x.result? = none
        | .error e => ∃ r, x.result? = some r ∧ r = op.failure e ∧ r.group = operationsGroup ∧
            r.passed = false
    | .configure change => x.result? = none ∧ x.left = change.apply x.context := by
  cases h with
  | stopped h hstops => exact ⟨_, _, rfl, h⟩
  | test h hgoes => exact ⟨_, _, rfl, h⟩
  | operation h => exact ⟨_, _, h, rfl⟩
  | failed h => exact ⟨_, _, h, _, rfl, rfl, rfl, rfl⟩
  | configured change c w => exact ⟨rfl, rfl⟩

variable (policy tr) in
/-- Steps that are carried out one after another, from one context and world to others: each begins
where the one before it ended. -/
inductive Chain : Context → World σ → List (StepRun σ) → Context → World σ → Prop where
  | nil (c : Context) (w : World σ) : Chain c w [] c w
  | cons {x : StepRun σ} {rest : List (StepRun σ)} {d : Context} {u : World σ}
      (done : x.Done policy tr) (chain : Chain x.left x.next rest d u) :
      Chain x.context x.world (x :: rest) d u

namespace Chain

variable {c d : Context} {w u : World σ} {trace : List (StepRun σ)}

theorem done (h : Chain policy tr c w trace d u) : ∀ x ∈ trace, x.Done policy tr := by
  induction h with
  | nil c w => exact fun x hx => nomatch hx
  | cons done _ ih => exact List.forall_mem_cons.mpr ⟨done, ih⟩

/-- **What is sent along a chain** is what its steps send, in order. -/
theorem sends (h : Chain policy tr c w trace d u) :
    ∃ own, List.Forall₂ Sends trace own ∧ u.sends = w.sends ++ own.flatten := by
  induction h with
  | nil c w => exact ⟨[], .nil, (List.append_nil _).symm⟩
  | cons done _ ih =>
    obtain ⟨rest, hrest, hsends⟩ := ih
    obtain ⟨own, hown⟩ := done.exists_sends
    refine ⟨own :: rest, .cons hown hrest, ?_⟩
    rw [hsends, hown.1, List.append_assoc, List.flatten_cons]

end Chain

end StepRun

/-! ## All steps -/

/-- The progress after a step. -/
def Progress.after (p : Progress) (x : StepRun σ) : Progress where
  context := x.left
  results := p.results ++ x.result?.toList
  stoppedEarly := p.stoppedEarly || x.stops

namespace TestSet

variable (policy : RetryPolicy) (tr : Transport σ)

/-- **One step of a run.**  It is carried out, and the run ends with it or goes on where it leaves
off; or it is a test that breaks off, and the run with it. -/
theorem run_runSteps_cons (step : Step) (rest : List Step) (p : Progress) (w : World σ) :
    (∃ x : StepRun σ, x.Done policy tr ∧ x.step = step ∧ x.context = p.context ∧ x.world = w ∧
      (runSteps policy (step :: rest) p).run tr w =
        if x.stops then (.ok (p.after x), x.next)
        else (runSteps policy rest (p.after x)).run tr x.next) ∨
    ∃ t config b u, step = .test t config ∧
      (t.run policy config p.context).run tr w = (.error b, u) ∧
      (runSteps policy (step :: rest) p).run tr w = (.error b, u) := by
  cases step with
  | test t config =>
    rcases hr : (t.run policy config p.context).run tr w with ⟨b | ⟨r, d⟩, u⟩
    · refine .inr ⟨t, config, b, u, rfl, hr, ?_⟩
      rw [runSteps, Program.run_bind, hr, Ran.andThen_error]
    · left
      cases hstops : !r.passed && t.stopOnFailure with
      | true =>
        refine ⟨_, .stopped hr hstops, rfl, rfl, rfl, ?_⟩
        rw [runSteps, Program.run_bind, hr, Ran.andThen_ok]
        dsimp only
        rw [if_pos hstops, if_pos rfl, Program.run_bind, Program.run_notes, Ran.andThen_ok,
          Progress.after, Bool.or_true]
        rfl
      | false =>
        refine ⟨_, .test hr hstops, rfl, rfl, rfl, ?_⟩
        rw [runSteps, Program.run_bind, hr, Ran.andThen_ok]
        dsimp only
        rw [if_neg (by rw [hstops]; exact Bool.false_ne_true), if_neg Bool.false_ne_true,
          Progress.after, Bool.or_false]
        cases t.delay <;> rfl
  | operation op =>
    left
    obtain ⟨outcome, d, u, hr, -⟩ := op.exists_run p.context tr w
    cases outcome with
    | ok _ =>
      refine ⟨_, .operation hr, rfl, rfl, rfl, ?_⟩
      simp [runSteps, Program.run_bind, hr, Progress.after]
    | error e =>
      refine ⟨_, .failed hr, rfl, rfl, rfl, ?_⟩
      simp [runSteps, Program.run_bind, hr, Progress.after, Progress.add]
  | configure change =>
    refine .inl ⟨_, .configured change p.context w, rfl, rfl, rfl, ?_⟩
    simp [runSteps, Progress.after]

/-- Steps carried out one after another, from a progress and a world, and what they come to: one of
them ends the run or breaks it off, or there is no other left. -/
inductive Course : List Step → Progress → World σ → List (StepRun σ) → Ran σ Progress → Prop where
  | nil (p : Progress) (w : World σ) : Course [] p w [] (.ok p, w)
  | stopped {x : StepRun σ} {p : Progress} (rest : List Step) (done : x.Done policy tr)
      (hcontext : x.context = p.context) (hstops : x.stops = true) :
      Course (x.step :: rest) p x.world [x] (.ok (p.after x), x.next)
  | goesOn {x : StepRun σ} {p : Progress} {rest : List Step} {trace : List (StepRun σ)}
      {r : Ran σ Progress} (done : x.Done policy tr) (hcontext : x.context = p.context)
      (hgoes : x.stops = false) (course : Course rest (p.after x) x.next trace r) :
      Course (x.step :: rest) p x.world (x :: trace) r
  | broken {t : Test} {config : Config} {p : Progress} {b : Break} {w u : World σ}
      (rest : List Step) (h : (t.run policy config p.context).run tr w = (.error b, u)) :
      Course (.test t config :: rest) p w [] (.error b, u)

/-- **What is carried out goes through a course.** -/
theorem exists_course (steps : List Step) (p : Progress) (w : World σ) :
    ∃ trace, Course policy tr steps p w trace ((runSteps policy steps p).run tr w) := by
  induction steps generalizing p w with
  | nil => exact ⟨[], .nil p w⟩
  | cons step rest ih =>
    rcases run_runSteps_cons policy tr step rest p w with
      ⟨x, hdone, rfl, hcontext, rfl, hrun⟩ | ⟨t, config, b, u, rfl, hbreaks, hrun⟩
    · rw [hrun]
      cases hstops : x.stops with
      | true => exact ⟨[x], .stopped rest hdone hcontext hstops⟩
      | false =>
        obtain ⟨trace, htrace⟩ := ih (p.after x) x.next
        exact ⟨x :: trace, .goesOn hdone hcontext hstops htrace⟩
    · rw [hrun]
      exact ⟨[], .broken rest hbreaks⟩

namespace Course

variable {policy tr} {steps : List Step} {p q : Progress} {w u : World σ}
  {trace : List (StepRun σ)} {r : Ran σ Progress} {b : Break}

/-- What is carried out is the first steps. -/
theorem map_step_prefix (h : Course policy tr steps p w trace r) :
    trace.map StepRun.step <+: steps := by
  induction h with
  | nil p w => exact List.nil_prefix
  | stopped rest done hcontext hstops => exact (List.prefix_cons_inj _).mpr List.nil_prefix
  | goesOn done hcontext hgoes _ ih => exact (List.prefix_cons_inj _).mpr ih
  | broken rest h => exact List.nil_prefix

/-- Only the last one can end a run. -/
theorem stops_eq_false (h : Course policy tr steps p w trace r) :
    ∀ x ∈ trace.dropLast, x.stops = false := by
  induction h with
  | nil p w => exact fun x hx => nomatch hx
  | stopped rest done hcontext hstops => exact fun x hx => nomatch hx
  | @goesOn x p rest trace r done hcontext hgoes course ih =>
    cases trace with
    | nil => exact fun x hx => nomatch hx
    | cons y trace =>
      rw [List.dropLast_cons_cons]
      exact List.forall_mem_cons.mpr ⟨hgoes, ih⟩
  | broken rest h => exact fun x hx => nomatch hx

theorem chain (h : Course policy tr steps p w trace r) (hr : r = (.ok q, u)) :
    StepRun.Chain policy tr p.context w trace q.context u := by
  induction h with
  | nil p w =>
    cases hr
    exact .nil _ _
  | stopped rest done hcontext hstops =>
    cases hr
    rw [← hcontext]
    exact .cons done (.nil _ _)
  | goesOn done hcontext hgoes _ ih =>
    rw [← hcontext]
    exact .cons done (ih hr)
  | broken rest h => cases hr

/-- **The results of a run** are those of the steps that are carried out. -/
theorem results_eq (h : Course policy tr steps p w trace r) (hr : r = (.ok q, u)) :
    q.results = p.results ++ trace.filterMap StepRun.result? := by
  have hcons (x : StepRun σ) (xs : List (StepRun σ)) : (x :: xs).filterMap StepRun.result? =
      x.result?.toList ++ xs.filterMap StepRun.result? := by
    rw [List.filterMap_cons]
    cases x.result? <;> rfl
  induction h with
  | nil p w =>
    cases hr
    exact (List.append_nil _).symm
  | stopped rest done hcontext hstops =>
    cases hr
    rw [hcons, List.filterMap_nil, List.append_nil]
    rfl
  | goesOn done hcontext hgoes _ ih =>
    rw [ih hr, hcons]
    exact List.append_assoc _ _ _
  | broken rest h => cases hr

theorem stoppedEarly_eq (h : Course policy tr steps p w trace r) (hr : r = (.ok q, u)) :
    q.stoppedEarly = (p.stoppedEarly || trace.any StepRun.stops) := by
  induction h with
  | nil p w =>
    cases hr
    exact (Bool.or_false _).symm
  | stopped rest done hcontext hstops =>
    cases hr
    rw [List.any_cons, List.any_nil, Bool.or_false]
    rfl
  | goesOn done hcontext hgoes _ ih =>
    rw [ih hr, Progress.after, List.any_cons, Bool.or_assoc]
  | broken rest h => cases hr

/-- **Nothing else ends a run**: where no step does, all steps are carried out. -/
theorem map_step_eq (h : Course policy tr steps p w trace r) (hr : r = (.ok q, u))
    (hgoes : trace.any StepRun.stops = false) : trace.map StepRun.step = steps := by
  induction h with
  | nil p w => rfl
  | stopped rest done hcontext hstops =>
    rw [List.any_cons, hstops] at hgoes
    cases hgoes
  | goesOn done hcontext hgoesOn _ ih =>
    rw [List.any_cons, hgoesOn, Bool.false_or] at hgoes
    rw [List.map_cons, ih hr hgoes]
  | broken rest h => cases hr

/-- **A run that breaks off** does so in a test, after the steps before it. -/
theorem exists_broken (h : Course policy tr steps p w trace r) (hr : r = (.error b, u)) :
    ∃ t config rest, steps = trace.map StepRun.step ++ .test t config :: rest ∧
      (∀ x ∈ trace, x.stops = false) ∧ ∃ d v, StepRun.Chain policy tr p.context w trace d v ∧
        (t.run policy config d).run tr v = (.error b, u) := by
  induction h with
  | nil p w => cases hr
  | stopped rest done hcontext hstops => cases hr
  | goesOn done hcontext hgoes _ ih =>
    obtain ⟨t, config, rest, rfl, hgoesOn, d, v, hchain, hbreaks⟩ := ih hr
    refine ⟨t, config, rest, rfl, List.forall_mem_cons.mpr ⟨hgoes, hgoesOn⟩, d, v, ?_, hbreaks⟩
    rw [← hcontext]
    exact .cons done hchain
  | broken rest h =>
    cases hr
    exact ⟨_, _, rest, rfl, fun x hx => (nomatch hx), _, _, .nil _ _, h⟩

end Course

/-- What a run in order makes of some steps, from a context and a world: an outcome and a world, by
the steps that are carried out. -/
structure RunsInOrder (steps : List Step) (c : Context) (w : World σ) (trace : List (StepRun σ))
    (o : Outcome) (u : World σ) : Prop where
  /-- The steps that are carried out are the first ones. -/
  first : trace.map StepRun.step <+: steps
  /-- Each begins where the one before it ended, and the run ends where the last one does. -/
  chain : StepRun.Chain policy tr c w trace o.context u
  /-- A failing test that asks for an end is the last one. -/
  goesOn : ∀ x ∈ trace.dropLast, x.stops = false
  /-- Nothing else ends the run. -/
  complete : o.stoppedEarly = false → trace.map StepRun.step = steps
  stopped : o.stoppedEarly = true ↔ ∃ x, trace.getLast? = some x ∧ x.stops = true
  /-- The results are those of the steps that are carried out, in order. -/
  results : o.results = trace.filterMap StepRun.result?
  /-- The test that ends the run has the last result. -/
  last : ∀ x, trace.getLast? = some x → x.stops = true →
    ∃ r, o.results.getLast? = some r ∧ x.result? = some r ∧ r.passed = false
  /-- What is sent is what they send, in order. -/
  sends : ∃ own, List.Forall₂ StepRun.Sends trace own ∧ u.sends = w.sends ++ own.flatten

/-- How a run in order of some steps breaks off: in a test whose exchange may break off, after the
steps before it have been carried out. -/
structure BreaksOff (steps : List Step) (c : Context) (w : World σ) (trace : List (StepRun σ))
    (t : Test) (config : Config) (rest : List Step) (b : Break) (u : World σ) : Prop where
  steps_eq : steps = trace.map StepRun.step ++ .test t config :: rest
  goesOn : ∀ x ∈ trace, x.stops = false
  /-- The request of the test was prepared, and its exchange breaks off.  What is sent is what the
  steps before the test send, in order, and then its attempts. -/
  breaks : ∃ d v request left, StepRun.Chain policy tr c w trace d v ∧
    t.prepare.run.run d = (.ok request, left) ∧
    config.replyTo policy tr v request = .error b ∧ (config.exchange policy request).MayBreak b ∧
    ∃ own last, List.Forall₂ StepRun.Sends trace own ∧ t.Attempts config d last ∧
      u.sends = w.sends ++ own.flatten ++ last

/-- If only the last of some steps can end a run, then one of them does exactly if the last does. -/
theorem any_stops_iff {trace : List (StepRun σ)} (h : ∀ x ∈ trace.dropLast, x.stops = false) :
    trace.any StepRun.stops = true ↔ ∃ x, trace.getLast? = some x ∧ x.stops = true := by
  rcases List.eq_nil_or_concat trace with rfl | ⟨before, x, rfl⟩
  · simp
  · rw [List.concat_eq_append, List.dropLast_concat] at h
    have hbefore : before.any StepRun.stops = false :=
      List.any_eq_false.mpr fun y hy => Bool.not_eq_true _ ▸ h y hy
    simp [hbefore]

/-- **A set in order.**  A set whose tests are not sent side by side carries out its first steps,
each where the one before it left off, up to and including the first failing test that asks for an
end; without one it carries out all of them.  The one exception is a test whose exchange breaks off,
and its request has been prepared then: no step after it is carried out, and there is no outcome. -/
theorem runsInOrder_or_breaksOff (s : TestSet)
    (h : (s.config.testParallel && s.isIndependent) = false) (env : Environment) (w : World σ) :
    match (s.run policy env).run tr w with
    | (.ok o, u) => ∃ trace,
        RunsInOrder policy tr s.steps (s.config.newContext env) w trace o u
    | (.error b, u) => ∃ trace t config rest,
        BreaksOff policy tr s.steps (s.config.newContext env) w trace t config rest b u := by
  have hrun : s.run policy env =
      runSteps policy s.steps ⟨s.config.newContext env, [], false⟩ >>= fun p =>
        pure ⟨s.name, p.results, p.context, p.stoppedEarly, s.config.skipTermColors⟩ := by
    rw [TestSet.run, h, if_neg Bool.false_ne_true]
  obtain ⟨trace, hcourse⟩ :=
    exists_course policy tr s.steps ⟨s.config.newContext env, [], false⟩ w
  rw [hrun, Program.run_bind]
  rcases hr : (runSteps policy s.steps ⟨s.config.newContext env, [], false⟩).run tr w with
    ⟨b | q, u⟩
  · obtain ⟨t, config, rest, hsteps, hgoesOn, d, v, hchain, hbreaks⟩ := hcourse.exists_broken hr
    obtain ⟨request, left, hprepared, hreply⟩ :=
      (t.run_eq_error_iff policy config d tr v).mp (congrArg Prod.fst hbreaks)
    obtain ⟨own, hown, hsends⟩ := hchain.sends
    obtain ⟨last, hlast, hattempts⟩ := t.sends_run policy config d tr v
    rw [hbreaks, hsends] at hattempts
    exact ⟨trace, t, config, rest, hsteps, hgoesOn, d, v, request, left, hchain, hprepared, hreply,
      Exchange.mayBreak_of_run hreply, own, last, hown, hlast, hattempts⟩
  · have hchain := hcourse.chain hr
    have hresults : q.results = trace.filterMap StepRun.result? := hcourse.results_eq hr
    have hstopped : q.stoppedEarly = trace.any StepRun.stops := hcourse.stoppedEarly_eq hr
    have hgoesOn := hcourse.stops_eq_false
    rw [Ran.andThen_ok, Program.run_pure]
    refine ⟨trace, hcourse.map_step_prefix, hchain, hgoesOn,
      fun hfalse => hcourse.map_step_eq hr (hstopped.symm.trans hfalse),
      (hstopped ▸ any_stops_iff hgoesOn), hresults, fun x hx hstops => ?_, hchain.sends⟩
    obtain ⟨t, config, r, -, hresult, hfailed, -⟩ :=
      (hchain.done x (List.mem_of_getLast? hx)).stops_iff.mp hstops
    have hlast : (trace.filterMap StepRun.result?).getLast? = some r := by
      obtain ⟨before, hbefore⟩ := List.getLast?_eq_some_iff.mp hx
      rw [hbefore, List.filterMap_append, List.filterMap_cons, hresult]
      exact List.getLast?_concat
    exact ⟨r, (congrArg List.getLast? hresults).trans hlast, hresult, hfailed⟩

/-- An operation that fails, a test that fails, one that also asks for an end, and one more. -/
def refused : TestSet where
  steps := [.operation (.bind [("x", .string "\x7b\x7bmissing\x7d\x7d")]),
    .test (Test.ofUrl "http://h/1") {},
    .test { Test.ofUrl "http://h/2" with stopOnFailure := true } {},
    .test (Test.ofUrl "http://h/3") {}]
  config := {}
  source := none

/-- Against a transport that refuses everything, `refused` ends with its third step. -/
theorem refused_runsInOrder :
    let tr := Transport.constant ⟨0, .error (.connection "refused")⟩
    (refused.config.testParallel && refused.isIndependent) = false ∧
      ∃ o u trace, (refused.run {} []).run tr (World.start ()) = (.ok o, u) ∧
        o.results.map (fun r => (r.name, r.group)) =
          [("bind x", operationsGroup), ("http://h/1", Test.defaultGroup),
            ("http://h/2", Test.defaultGroup)] ∧
        o.stoppedEarly = true ∧
        RunsInOrder {} tr refused.steps (refused.config.newContext []) (World.start ()) trace o
          u := by
  intro tr
  have hrun := runsInOrder_or_breaksOff {} tr refused rfl [] (World.start ())
  have houtcome : ((refused.run {} []).run tr (World.start ())).1.toOption.map
      (fun o => (o.results.map (fun r => (r.name, r.group)), o.stoppedEarly)) =
      some ([("bind x", operationsGroup), ("http://h/1", Test.defaultGroup),
        ("http://h/2", Test.defaultGroup)], true) := by decide +kernel
  rcases h : (refused.run {} []).run tr (World.start ()) with ⟨b | o, u⟩
  · rw [h] at houtcome
    cases houtcome
  · rw [h] at hrun houtcome
    obtain ⟨trace, htrace⟩ := hrun
    obtain ⟨hresults, hstopped⟩ := Prod.mk.inj (Option.some.inj houtcome)
    exact ⟨rfl, o, u, trace, rfl, hresults, hstopped, htrace⟩

/-- Two tests with one retry each. -/
def patient : TestSet where
  steps := [.test (Test.ofUrl "http://h/1") { retries := 1 },
    .test (Test.ofUrl "http://h/2") { retries := 1 }]
  config := { retries := 1 }
  source := none

/-- Pauses that grow by so much that none has a product. -/
def steep : RetryPolicy where
  multiplier := Binary64.ofInt 1000000000000000000000000000000

/-- What the first attempt of `patient` comes to, before there are only responses. -/
def refusedOnce : Script where
  queue := [⟨0, .error (.connection "refused")⟩]
  routes := []
  fallback := ⟨0, .ok ⟨200, [], []⟩⟩

/-- Neither test of `patient` asks for an end, and a retry would mend the failure of the first.  But
with pauses that have no product nothing is sent after that failure, and there is no outcome. -/
theorem patient_breaks :
    let run := (patient.run steep []).run (Transport.scripted "script") (World.start refusedOnce)
    (patient.config.testParallel && patient.isIndependent) = false ∧
      (patient.tests.map fun x => x.1.stopOnFailure) = [false, false] ∧
      run.1.toOption.isNone = true ∧
      run.2.sends.map (fun sending => sending.1.url) = ["http://h/1"] := by
  decide +kernel

end TestSet

end HttpSuite
