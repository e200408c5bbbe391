import HttpSuite.Proofs.Run.Acts
import HttpSuite.Proofs.Run.Independence

/-!
# What a set does

However a set runs, it carries out its first steps, up to and including a failing test that asks for
an end, or all of them.  A `Deed` is a step that was carried out: what there was to it, and so what
came of it.  An account of deeds, `Deed.Account`, gives everything that a run of a set does: each
test is exchanged and judged under the configuration that its step holds, and nothing else is
exchanged.  `Deed.Ends` gives what the set comes to: its results are those of the deeds, in order.

A set that is left before its end has no results.  What it has done up to then has an account as
well, with a deed for each test that is left without a reply.

`TestSet.exists_deeds` is the main statement: whatever a set may do, in order or with its tests side
by side, there is an account of it.  Notes and exchanges are accounted for separately there.  What
matters of their order is when the user is asked and when an exchange begins, the cues among the
acts: `TestSet.exists_deeds_of_inOrder` says that they come deed by deed.
-/

namespace HttpSuite

/-! ## Cues -/

def Note.isPause : Note → Bool
  | pause _ => true
  | _ => false

/-- Whether something waits for the act to be answered: a prompt for the user, an exchange for a
reply. -/
def Act.isCue : Act → Bool
  | note n => n.isPause
  | exchange _ _ => true

/-! ## Deeds -/

/-- A step that was carried out. -/
inductive Deed where
  /-- A test without a request. -/
  | refused (test : Test) (config : Config) (failure : Failure)
  /-- A test that was prepared and then left, without a reply if it has a request. -/
  | prepared (test : Test) (config : Config) (request : Except Failure Request)
  /-- A test with its request and the reply to it, judged in a context. -/
  | judged (test : Test) (config : Config) (request : Request) (reply : Reply) (context : Context)
  | operated (operation : Operation) (outcome : Except OperationError Unit)
  | configured (change : Config.Change)

/-- What is noted before the user lets a request go. -/
def Test.promptNotes (t : Test) (config : Config) (request : Request) : List Note :=
  if config.interactive then
    (t.requestLines request).map .line ++ [.pause "Press ENTER when ready"]
  else []

/-- What is noted of a judgement. -/
def Judgement.notes (j : Judgement) : List Note := j.lines.map .line ++ j.result.notes

namespace Deed

def step : Deed → Step
  | refused t config _ => .test t config
  | prepared t config _ => .test t config
  | judged t config _ _ _ => .test t config
  | operated op _ => .operation op
  | configured change => .configure change

/-- Whether the deed was carried out to its end. -/
def isOver : Deed → Bool
  | prepared _ _ _ => false
  | _ => true

/-- A test has a result, an operation if it fails. -/
def result? : Deed → Option TestResult
  | refused t _ f => some (.failed t t.url f)
  | prepared _ _ _ => none
  | judged t config request reply context => some (t.judge config request reply context).result
  | operated _ (.ok _) => none
  | operated op (.error e) => some (op.failure e)
  | configured _ => none

/-- A request is exchanged under the configuration of its test. -/
def exchange? (policy : RetryPolicy) : Deed → Option (Exchange × Option Reply)
  | prepared _ config request => (config.exchange? policy request).map fun x => (x, none)
  | judged _ config request reply _ => some (config.exchange policy request, some reply)
  | _ => none

/-- A reply is judged under the configuration of its test. -/
def notes : Deed → List Note
  | refused t _ f => (TestResult.failed t t.url f).notes
  | prepared t config (.ok request) => t.promptNotes config request
  | prepared _ _ (.error _) => []
  | judged t config request reply context =>
    t.promptNotes config request ++ (t.judge config request reply context).notes
  | operated _ (.ok _) => []
  | operated op (.error e) => (op.failure e).notes
  | configured _ => []

/-- The user is prompted for an interactive test. -/
def prompt (config : Config) : List Act :=
  if config.interactive then [.note (.pause "Press ENTER when ready")] else []

/-- A request is exchanged after a prompt, if its test is interactive. -/
def cues (policy : RetryPolicy) : Deed → List Act
  | prepared _ config (.ok request) =>
    prompt config ++ [.exchange (config.exchange policy request) none]
  | judged _ config request reply _ =>
    prompt config ++ [.exchange (config.exchange policy request) (some reply)]
  | _ => []

/-- Whether the deed is a failing test that asks for an end. -/
def stops (d : Deed) : Bool :=
  match d.step, d.result? with
  | .test t _, some r => !r.passed && t.stopOnFailure
  | _, _ => false

/-- What there is to the deed comes of its test or its operation, in some context. -/
def Genuine : Deed → Prop
  | refused t _ f => ∃ context left, t.prepare.run.run context = (.error f, left)
  | prepared t _ request => ∃ context left, t.prepare.run.run context = (request, left)
  | judged t _ request _ _ => ∃ context left, t.prepare.run.run context = (.ok request, left)
  | operated op outcome => ∃ context acts left, (op.run context).Does acts (some (outcome, left))
  | configured _ => True

/-- The deed accounts for what is exchanged, noted and added to the results in a step. -/
structure Explains (policy : RetryPolicy) (step : Step)
    (exchanges : List (Exchange × Option Reply)) (notes : List Note) (result? : Option TestResult)
    (d : Deed) : Prop where
  step_eq : d.step = step
  genuine : d.Genuine
  result?_eq : d.result? = result?
  exchanges_eq : exchanges = (d.exchange? policy).toList
  notes_sublist : d.notes.Sublist notes

/-- The deeds account for what is exchanged and noted in a run of some steps.  Only operations and
the end of a run note more. -/
structure Account (policy : RetryPolicy) (steps : List Step)
    (exchanges : List (Exchange × Option Reply)) (notes : List Note) (deeds : List Deed) :
    Prop where
  /-- The steps that were carried out are the first ones. -/
  first : deeds.map step <+: steps
  genuine : ∀ d ∈ deeds, d.Genuine
  exchanges_eq : exchanges = deeds.filterMap (exchange? policy)
  notes_sublist : (deeds.flatMap Deed.notes).Sublist notes

/-- The deeds are those of a run of some steps to its end, with these results. -/
structure Ends (steps : List Step) (results : List TestResult) (stopped : Bool)
    (deeds : List Deed) : Prop where
  isOver : ∀ d ∈ deeds, d.isOver = true
  /-- None is left out unless a test ends the run. -/
  complete : stopped = false → deeds.map step = steps
  stopped_eq : stopped = deeds.any stops
  results_eq : results = deeds.filterMap result?

variable {policy : RetryPolicy} {step : Step} {rest : List Step}
  {exchanges later : List (Exchange × Option Reply)} {notes lines : List Note}
  {result? : Option TestResult} {results : List TestResult} {stopped : Bool} {d : Deed}
  {deeds : List Deed}

/-- Only a test that asks for an end can end a run. -/
theorem stops_eq_false {t : Test} {config : Config} (hd : d.step = .test t config)
    (ht : t.stopOnFailure = false) : d.stops = false := by
  rw [stops, hd]
  cases d.result? with
  | none => rfl
  | some r => exact (congrArg (!r.passed && ·) ht).trans (Bool.and_false _)

/-- What is exchanged for a deed is the request of a test, under the configuration of its step. -/
theorem exists_of_exchange? {x : Exchange} {reply : Option Reply}
    (h : d.exchange? policy = some (x, reply)) : ∃ t config request,
      d.step = .test t config ∧ x = config.exchange policy request := by
  cases d with
  | prepared t config request =>
    cases request with
    | error f => cases h
    | ok request =>
      cases h
      exact ⟨t, config, request, rfl, rfl⟩
  | judged t config request reply context =>
    cases h
    exact ⟨t, config, request, rfl, rfl⟩
  | _ => cases h

namespace Account

/-- Before the first step. -/
theorem nil (policy : RetryPolicy) (steps : List Step) (lines : List Note) :
    Account policy steps [] lines [] :=
  ⟨List.nil_prefix, fun _ hd => (nomatch hd), rfl, List.nil_sublist _⟩

/-- A step, and what follows it. -/
theorem cons (hd : d.Explains policy step exchanges notes result?)
    (h : Account policy rest later lines deeds) :
    Account policy (step :: rest) (exchanges ++ later) (notes ++ lines) (d :: deeds) where
  first := by
    rw [List.map_cons, hd.step_eq]
    exact (List.prefix_cons_inj step).mpr h.first
  genuine := List.forall_mem_cons.mpr ⟨hd.genuine, h.genuine⟩
  exchanges_eq := by
    rw [h.exchanges_eq, hd.exchanges_eq, List.filterMap_cons]
    cases d.exchange? policy <;> rfl
  notes_sublist := by
    rw [List.flatMap_cons]
    exact hd.notes_sublist.append h.notes_sublist

/-- A step that nothing follows. -/
theorem single (hd : d.Explains policy step exchanges notes result?) (rest : List Step)
    (lines : List Note) : Account policy (step :: rest) exchanges (notes ++ lines) [d] := by
  rw [← List.append_nil exchanges]
  exact .cons hd (.nil policy rest lines)

end Account

namespace Ends

theorem nil : Ends [] [] false [] := ⟨fun _ hd => (nomatch hd), fun _ => rfl, rfl, rfl⟩

/-- A step that does not end the run, and what follows it. -/
theorem cons (hstep : d.step = step) (hresult : d.result? = result?) (hover : d.isOver = true)
    (hgoes : d.stops = false) (h : Ends rest results stopped deeds) :
    Ends (step :: rest) (result?.toList ++ results) stopped (d :: deeds) where
  isOver := List.forall_mem_cons.mpr ⟨hover, h.isOver⟩
  complete := fun hstopped => by rw [List.map_cons, hstep, h.complete hstopped]
  stopped_eq := by rw [List.any_cons, hgoes, Bool.false_or, h.stopped_eq]
  results_eq := by
    rw [h.results_eq, List.filterMap_cons, hresult]
    cases result? <;> rfl

/-- A step that ends the run. -/
theorem stop (hresult : d.result? = result?) (hover : d.isOver = true) (hstops : d.stops = true)
    (steps : List Step) : Ends steps result?.toList true [d] where
  isOver := List.forall_mem_singleton.mpr hover
  complete := fun h => nomatch h
  stopped_eq := by rw [List.any_cons, hstops, Bool.true_or]
  results_eq := by
    rw [List.filterMap_cons, hresult]
    cases result? <;> rfl

end Ends

end Deed

/-! ## One step -/

namespace Act

@[simp] theorem filterMap_note?_map (ns : List Note) : (ns.map note).filterMap note? = ns := by
  rw [List.filterMap_map]
  exact List.filterMap_some

@[simp] theorem filterMap_exchange?_map (ns : List Note) :
    (ns.map note).filterMap exchange? = [] := by
  rw [List.filterMap_map]
  exact List.filterMap_eq_nil_iff.mpr fun _ _ => rfl

@[simp] theorem filter_isCue_map (ns : List Note) :
    (ns.map note).filter isCue = (ns.filter Note.isPause).map note :=
  List.filter_map

/-- Exchanges are cues. -/
theorem filterMap_exchange?_eq_nil {acts : List Act} (h : acts.filter isCue = []) :
    acts.filterMap exchange? = [] := by
  refine List.filterMap_eq_nil_iff.mpr fun act hact => ?_
  cases act with
  | note n => rfl
  | exchange x reply => exact absurd rfl (List.filter_eq_nil_iff.mp h _ hact)

end Act

@[simp] theorem TestResult.filter_isPause_notes (r : TestResult) :
    r.notes.filter Note.isPause = [] := by
  refine List.filter_eq_nil_iff.mpr fun n hn => ?_
  unfold notes at hn
  dsimp only at hn
  split at hn
  · rw [List.mem_singleton.mp hn]
    exact Bool.false_ne_true
  · rcases List.mem_cons.mp hn with rfl | hn
    · exact Bool.false_ne_true
    · obtain ⟨f, -, hn⟩ := List.mem_flatMap.mp hn
      rcases List.mem_cons.mp hn with rfl | hn
      · exact Bool.false_ne_true
      · split at hn
        · rw [List.mem_singleton.mp hn]
          exact Bool.false_ne_true
        · cases hn

@[simp] theorem filter_isPause_lines (lines : List String) :
    (lines.map Note.line).filter Note.isPause = [] := by
  rw [List.filter_map]
  exact List.map_eq_nil_iff.mpr (List.filter_eq_nil_iff.mpr fun _ _ => Bool.false_ne_true)

@[simp] theorem Judgement.filter_isPause_notes (j : Judgement) :
    j.notes.filter Note.isPause = [] := by
  rw [notes, List.filter_append, filter_isPause_lines, TestResult.filter_isPause_notes]
  rfl

/-- An interactive test prompts once. -/
theorem Test.filter_isPause_promptNotes (t : Test) (config : Config) (request : Request) :
    (t.promptNotes config request).filter Note.isPause =
      if config.interactive then [.pause "Press ENTER when ready"] else [] := by
  unfold promptNotes
  split
  · rw [List.filter_append, filter_isPause_lines]
    rfl
  · rfl

/-- Replies come in without a note. -/
theorem Exchange.Answered.filterMap_note? {xs : List (Option Exchange)}
    {replies : List (Option Reply)} {acts : List Act} (h : Answered xs replies acts) :
    acts.filterMap Act.note? = [] := by
  induction h with
  | nil => rfl
  | none _ ih => exact ih
  | some _ ih => exact ih

/-- All that is seen of an operation are lines. -/
theorem Operation.exists_lines {op : Operation} {context : Context} {acts : List Act}
    {v : Option (Except OperationError Unit × Context)} (h : (op.run context).Does acts v) :
    ∃ lines : List String, acts = (lines.map Note.line).map .note := by
  cases op with
  | print message =>
    rw [run] at h
    split at h
    · cases h with
      | note h =>
        cases h
        exact ⟨[_], rfl⟩
    · cases h
      exact ⟨[], rfl⟩
  | delay d =>
    cases h with
    | sleep h =>
      cases h
      exact ⟨[], rfl⟩
    | asleep => exact ⟨[], rfl⟩
  | bind bindings =>
    rw [run] at h
    split at h
    · cases h
      exact ⟨[], rfl⟩
    · cases h
      exact ⟨[], rfl⟩

namespace Test

variable {policy : RetryPolicy} {t : Test} {config : Config} {context left : Context}
  {acts : List Act} {v : Option (TestResult × Context)}

/-- A reply is judged, which is noted; without one, the test is left. -/
theorem exists_reply {request : Request} (h : (do
      let reply ← Program.perform (config.exchange policy request)
      let judgement := t.judge config request reply context
      Program.notes (judgement.lines.map .line ++ judgement.result.notes)
      return (judgement.result, judgement.context) :
        Program (TestResult × Context)).Does acts v) :
    (acts = [.exchange (config.exchange policy request) none] ∧ v = none) ∨
    ∃ reply, acts = .exchange (config.exchange policy request) (some reply) ::
        (t.judge config request reply context).notes.map .note ∧
      v.map Prod.fst = some (t.judge config request reply context).result := by
  rcases h.of_bind with ⟨first, reply, rest, hfirst, hrest, rfl⟩ | ⟨hleft, rfl⟩
  · obtain ⟨last, hlast, rfl⟩ := hrest.of_notes_bind
    obtain ⟨rfl, rfl⟩ := hlast.of_pure
    rw [hfirst.of_perform, List.append_nil]
    exact .inr ⟨reply, rfl, rfl⟩
  · exact .inl ⟨hleft.of_perform, rfl⟩

/-- A test with a request is exchanged, after its prompt if there is one. -/
theorem exists_reply_of_prepare {request : Request} {context' : Context}
    (hp : t.prepare.run.run context = (.ok request, context'))
    (h : (t.run policy config context).Does acts v) :
    ∃ later, acts = (t.promptNotes config request).map .note ++ later ∧
      ((later = [.exchange (config.exchange policy request) none] ∧ v = none) ∨
      ∃ reply, later = .exchange (config.exchange policy request) (some reply) ::
          (t.judge config request reply context').notes.map .note ∧
        v.map Prod.fst = some (t.judge config request reply context').result) := by
  rw [run, hp] at h
  rw [promptNotes]
  cases hi : config.interactive with
  | false =>
    rw [hi] at h
    exact ⟨acts, rfl, exists_reply h⟩
  | true =>
    rw [hi] at h
    obtain ⟨later, hlater, rfl⟩ := Program.Does.of_notes_bind h
    exact ⟨later, rfl, exists_reply hlater⟩

/-- **A test** without a request is noted; one with a request is exchanged, and judged if there is a
reply. -/
theorem exists_deed (h : (t.run policy config context).Does acts v) :
    ∃ d : Deed, d.Explains policy (.test t config) (acts.filterMap Act.exchange?)
      (acts.filterMap Act.note?) (v.map Prod.fst) ∧ acts.filter Act.isCue = d.cues policy ∧
      d.isOver = v.isSome := by
  rcases hp : t.prepare.run.run context with ⟨f | request, context'⟩
  · rw [run, hp] at h
    obtain ⟨rest, hrest, rfl⟩ := Program.Does.of_notes_bind h
    obtain ⟨rfl, rfl⟩ := hrest.of_pure
    rw [List.append_nil]
    refine ⟨.refused t config f,
      ⟨rfl, ⟨context, _, hp⟩, rfl, Act.filterMap_exchange?_map _, ?_⟩, ?_, rfl⟩
    · rw [Act.filterMap_note?_map]
      exact .refl _
    · rw [Act.filter_isCue_map, TestResult.filter_isPause_notes]
      rfl
  · have hprompt : ((t.promptNotes config request).map Act.note).filter Act.isCue =
        Deed.prompt config := by
      rw [Act.filter_isCue_map, filter_isPause_promptNotes, Deed.prompt]
      cases config.interactive <;> rfl
    obtain ⟨later, rfl, ⟨rfl, rfl⟩ | ⟨reply, rfl, hv⟩⟩ := exists_reply_of_prepare hp h
    · refine ⟨.prepared t config (.ok request),
        ⟨rfl, ⟨context, context', hp⟩, rfl, ?_, ?_⟩, ?_, rfl⟩
      · rw [List.filterMap_append, Act.filterMap_exchange?_map]
        rfl
      · rw [List.filterMap_append, Act.filterMap_note?_map]
        exact List.sublist_append_left _ _
      · rw [List.filter_append, hprompt]
        rfl
    · refine ⟨.judged t config request reply context',
        ⟨rfl, ⟨context, context', hp⟩, hv.symm, ?_, ?_⟩, ?_, ?_⟩
      · rw [List.filterMap_append, Act.filterMap_exchange?_map, List.filterMap_cons,
          Act.filterMap_exchange?_map]
        rfl
      · rw [List.filterMap_append, Act.filterMap_note?_map, List.filterMap_cons,
          Act.filterMap_note?_map]
        exact .refl _
      · rw [List.filter_append, hprompt, List.filter_cons, Act.filter_isCue_map,
          Judgement.filter_isPause_notes]
        rfl
      · rw [← Option.isSome_map, hv]
        rfl

end Test

/-! ## Steps in order -/

namespace TestSet

variable {policy : RetryPolicy}

/-- The first of some steps has been begun: it ends the run, or the rest goes on from some progress
`q`, or the run is left in it. -/
inductive Began (policy : RetryPolicy) (step : Step) (rest : List Step) (p : Progress)
    (v : Option Progress) : List Act → Prop where
  | stops {first last : List Act} {result? : Option TestResult} (d : Deed) (p' : Progress)
      (explains : d.Explains policy step (first.filterMap Act.exchange?)
        (first.filterMap Act.note?) result?)
      (cues : first.filter Act.isCue = d.cues policy) (isOver : d.isOver = true)
      (stops : d.stops = true) (silent : last.filter Act.isCue = []) (ended : v = some p')
      (results : p'.results = p.results ++ result?.toList) (stopped : p'.stoppedEarly = true) :
      Began policy step rest p v (first ++ last)
  | goes {first later : List Act} {result? : Option TestResult} (d : Deed) (q : Progress)
      (explains : d.Explains policy step (first.filterMap Act.exchange?)
        (first.filterMap Act.note?) result?)
      (cues : first.filter Act.isCue = d.cues policy) (isOver : d.isOver = true)
      (goes : d.stops = false) (results : q.results = p.results ++ result?.toList)
      (stopped : q.stoppedEarly = p.stoppedEarly)
      (done : (runSteps policy rest q).MayHaveDone later v) :
      Began policy step rest p v (first ++ later)
  | silent {acts : List Act} (silent : acts.filter Act.isCue = []) (left : v = none) :
      Began policy step rest p v acts
  | prepared {acts : List Act} (d : Deed)
      (explains : d.Explains policy step (acts.filterMap Act.exchange?)
        (acts.filterMap Act.note?) none)
      (cues : acts.filter Act.isCue = d.cues policy) (left : v = none) :
      Began policy step rest p v acts

variable {rest : List Step} {p : Progress} {v : Option Progress} {acts : List Act}

/-- An operation never ends a run, and only one that fails has a result. -/
theorem began_operation {op : Operation}
    (h : (runSteps policy (.operation op :: rest) p).Does acts v) :
    Began policy (.operation op) rest p v acts := by
  have hsilent {first : List Act} {r : Option (Except OperationError Unit × Context)}
      (hop : (op.run p.context).Does first r) : first.filter Act.isCue = [] := by
    obtain ⟨lines, hlines⟩ := Operation.exists_lines hop
    rw [hlines, Act.filter_isCue_map, filter_isPause_lines]
    rfl
  rw [runSteps] at h
  rcases h.of_bind with ⟨first, ⟨outcome, context⟩, later, hop, hlater, rfl⟩ | ⟨hleft, rfl⟩
  · have hnone := Act.filterMap_exchange?_eq_nil (hsilent hop)
    have hgenuine : (Deed.operated op outcome).Genuine := ⟨p.context, first, context, hop⟩
    cases outcome with
    | ok u =>
      exact .goes (.operated op (.ok u)) { p with context := context }
        ⟨rfl, hgenuine, rfl, hnone, List.nil_sublist _⟩ (hsilent hop) rfl rfl
        (List.append_nil _).symm rfl (.inl hlater)
    | error e =>
      obtain ⟨last, hlast, rfl⟩ := Program.Does.of_notes_bind hlater
      rw [← List.append_assoc]
      refine .goes (.operated op (.error e)) (p.add (op.failure e) context)
        ⟨rfl, hgenuine, rfl, ?_, ?_⟩ ?_ rfl rfl rfl rfl (.inl hlast)
      · rw [List.filterMap_append, hnone, Act.filterMap_exchange?_map]
        rfl
      · rw [List.filterMap_append, Act.filterMap_note?_map]
        exact List.sublist_append_right _ _
      · rw [List.filter_append, hsilent hop, Act.filter_isCue_map,
          TestResult.filter_isPause_notes]
        rfl
  · exact .silent (hsilent hleft) rfl

/-- A test ends the run if it fails and asks for that. -/
theorem began_test {t : Test} {config : Config}
    (h : (runSteps policy (.test t config :: rest) p).Does acts v) :
    Began policy (.test t config) rest p v acts := by
  rw [runSteps] at h
  rcases h.of_bind with ⟨first, ⟨result, context⟩, later, htest, hlater, rfl⟩ | ⟨hleft, rfl⟩
  · obtain ⟨d, hd, hcues, hover⟩ := Test.exists_deed htest
    have hstops : d.stops = (!result.passed && t.stopOnFailure) := by
      rw [Deed.stops, hd.step_eq, hd.result?_eq]
      rfl
    dsimp only at hlater
    split at hlater
    · rename_i hstop
      obtain ⟨last, hlast, rfl⟩ := hlater.of_notes_bind
      obtain ⟨rfl, rfl⟩ := hlast.of_pure
      refine .stops d _ hd hcues hover (hstops.trans hstop) ?_ rfl rfl rfl
      rw [List.append_nil, Act.filter_isCue_map]
      rfl
    · rename_i hstop
      have hgoes := hstops.trans (Bool.eq_false_iff.mpr hstop)
      refine .goes d (p.add result context) hd hcues hover hgoes rfl rfl ?_
      cases hdelay : t.delay with
      | none =>
        rw [hdelay] at hlater
        exact .inl hlater
      | some pause =>
        rw [hdelay] at hlater
        rcases Program.Does.of_bind hlater with
          ⟨paused, _, last, hpaused, hlast, rfl⟩ | ⟨hpaused, rfl⟩
        · rw [hpaused.of_pause]
          exact .inl hlast
        · exact .inr ⟨hpaused.of_pause, rfl⟩
  · obtain ⟨d, hd, hcues, -⟩ := Test.exists_deed hleft
    exact .prepared d hd hcues rfl

/-- **One step** of a run. -/
theorem began_of_does {step : Step} (h : (runSteps policy (step :: rest) p).Does acts v) :
    Began policy step rest p v acts := by
  cases step with
  | operation op => exact began_operation h
  | configure change =>
    rw [← List.nil_append acts]
    exact .goes (.configured change) { p with context := change.apply p.context }
      ⟨rfl, trivial, rfl, rfl, .slnil⟩ rfl rfl rfl (List.append_nil _).symm rfl (.inl h)
  | test t config => exact began_test h

/-- The deeds are what a run of some steps does, from some progress, and say what it comes to. -/
structure Recounts (policy : RetryPolicy) (steps : List Step) (p : Progress) (acts : List Act)
    (v : Option Progress) (deeds : List Deed) : Prop where
  account :
    Deed.Account policy steps (acts.filterMap Act.exchange?) (acts.filterMap Act.note?) deeds
  cues : acts.filter Act.isCue = deeds.flatMap (Deed.cues policy)
  /-- A run is left in its last deed. -/
  isOver : ∀ d ∈ deeds.dropLast, d.isOver = true
  ends : ∀ p', v = some p' → ∃ results stopped, p'.results = p.results ++ results ∧
    p'.stoppedEarly = (p.stoppedEarly || stopped) ∧ Deed.Ends steps results stopped deeds

/-- A run that is left, without a cue, before any deed. -/
theorem Recounts.silent (steps : List Step) (p : Progress) (h : acts.filter Act.isCue = []) :
    Recounts policy steps p acts none [] where
  account := by
    rw [Act.filterMap_exchange?_eq_nil h]
    exact .nil policy steps _
  cues := h
  isOver := fun _ hd => nomatch hd
  ends := fun _ hp' => nomatch hp'

/-- **A run of steps**, from wherever a set has come to, is recounted by deeds. -/
theorem exists_recounts {steps : List Step} (h : (runSteps policy steps p).MayHaveDone acts v) :
    ∃ deeds, Recounts policy steps p acts v deeds := by
  induction steps generalizing p acts with
  | nil =>
    rcases h with h | ⟨rfl, rfl⟩
    · cases h
      refine ⟨[], .nil policy [] [], rfl, fun d hd => (nomatch hd), fun p' hp' => ?_⟩
      cases hp'
      exact ⟨[], false, (List.append_nil _).symm, (Bool.or_false _).symm, .nil⟩
    · exact ⟨[], .silent [] p rfl⟩
  | cons step rest ih =>
    rcases h with h | ⟨rfl, rfl⟩
    swap
    · exact ⟨[], .silent _ p rfl⟩
    cases began_of_does h with
    | @stops first last result? d p' hd hcues hover hstops hsilent hended hresults hstopped =>
      refine ⟨[d], ?_, ?_, fun d hd => (nomatch hd), fun p'' hp'' => ?_⟩
      · rw [List.filterMap_append, List.filterMap_append, Act.filterMap_exchange?_eq_nil hsilent,
          List.append_nil]
        exact .single hd rest _
      · rw [List.filter_append, hcues, hsilent, List.append_nil, List.flatMap_singleton]
      · cases hended.symm.trans hp''
        exact ⟨result?.toList, true, hresults, hstopped.trans (Bool.or_true _).symm,
          .stop hd.result?_eq hover hstops _⟩
    | @goes first acts result? d q hd hcues hover hgoes hresults hstopped hrest =>
      obtain ⟨deeds, haccount, hlater, hovers, hends⟩ := ih hrest
      refine ⟨d :: deeds, ?_, ?_, ?_, fun p' hp' => ?_⟩
      · rw [List.filterMap_append, List.filterMap_append]
        exact haccount.cons hd
      · rw [List.filter_append, hcues, hlater, List.flatMap_cons]
      · cases deeds with
        | nil => exact fun d hd => nomatch hd
        | cons d' deeds => exact List.forall_mem_cons.mpr ⟨hover, hovers⟩
      · obtain ⟨results, stopped, hresults', hstopped', hends'⟩ := hends p' hp'
        refine ⟨result?.toList ++ results, stopped, ?_, hstopped'.trans (by rw [hstopped]),
          hends'.cons hd.step_eq hd.result?_eq hover hgoes⟩
        rw [hresults', hresults, List.append_assoc]
    | silent hsilent hleft =>
      rw [hleft]
      exact ⟨[], .silent _ p hsilent⟩
    | prepared d hd hcues hleft =>
      refine ⟨[d], ?_, ?_, fun d hd => (nomatch hd), fun p' hp' => nomatch hleft.symm.trans hp'⟩
      · rw [← List.append_nil (acts.filterMap Act.note?)]
        exact .single hd rest []
      · rw [hcues, List.flatMap_singleton]

/-! ## Tests side by side -/

/-- The exchanges of tests that are prepared one after another, each in its place. -/
def exchangesOf (policy : RetryPolicy) (tests : List (Test × Config)) (context : Context) :
    List (Option Exchange) :=
  (tests.zip (prepareAll tests context).1).map fun x => x.1.2.exchange? policy x.2

/-- The deeds are those of tests that are prepared from a context and judged one after another from
a progress.  Every test has its result, and none ends the run. -/
structure Judges (policy : RetryPolicy) (tests : List (Test × Config)) (context : Context)
    (p p' : Progress) (exchanges : List (Exchange × Option Reply)) (notes : List Note)
    (deeds : List Deed) : Prop where
  account : Deed.Account policy (tests.map fun x => .test x.1 x.2) exchanges notes deeds
  exists_ends : ∃ results, p'.results = p.results ++ results ∧ p'.stoppedEarly = p.stoppedEarly ∧
    Deed.Ends (tests.map fun x => .test x.1 x.2) results false deeds
  exchangesOf_eq :
    exchangesOf policy tests context = deeds.map fun d => (d.exchange? policy).map Prod.fst

/-- A test, and those that follow it. -/
theorem Judges.cons {t : Test} {config : Config} {tests : List (Test × Config)}
    {context left c : Context} {p p' : Progress} {exchanges later : List (Exchange × Option Reply)}
    {notes lines : List Note} {request : Except Failure Request} {result : TestResult} {d : Deed}
    {deeds : List Deed} (ht : t.IsIndependent config)
    (hprepare : t.prepare.run.run context = (request, left))
    (hd : d.Explains policy (.test t config) exchanges notes (some result))
    (hover : d.isOver = true)
    (hexchange : config.exchange? policy request = (d.exchange? policy).map Prod.fst)
    (h : Judges policy tests left (p.add result c) p' later lines deeds) :
    Judges policy ((t, config) :: tests) context p p' (exchanges ++ later) (notes ++ lines)
      (d :: deeds) where
  account := h.account.cons hd
  exists_ends := by
    obtain ⟨results, hresults, hstopped, hends⟩ := h.exists_ends
    exact ⟨result :: results, hresults.trans (List.append_assoc ..), hstopped,
      hends.cons hd.step_eq hd.result?_eq hover
        (Deed.stops_eq_false hd.step_eq ht.stopOnFailure)⟩
  exchangesOf_eq := by
    rw [exchangesOf, prepareAll_cons, hprepare]
    exact congrArg₂ List.cons hexchange h.exchangesOf_eq

/-- **Tests whose replies have come in**, for independent tests prepared one after another. -/
theorem exists_deeds_judgeAll {tests : List (Test × Config)}
    (hindependent : ∀ x ∈ tests, x.1.IsIndependent x.2) {context : Context} {p : Progress}
    {v : Option Progress} {replies : List (Option Reply)} {first acts : List Act}
    (hanswered : Exchange.Answered (exchangesOf policy tests context) replies first)
    (h : (judgeAll (tests.zip ((prepareAll tests context).1.zip replies)) p).Does acts v) :
    ∃ p' deeds, v = some p' ∧ Judges policy tests context p p' (first.filterMap Act.exchange?)
      (acts.filterMap Act.note?) deeds := by
  induction tests generalizing context p replies first acts with
  | nil =>
    cases hanswered
    cases h
    exact ⟨p, [], rfl, .nil policy [] [], ⟨[], (List.append_nil _).symm, rfl, .nil⟩, rfl⟩
  | cons x tests ih =>
    obtain ⟨t, config⟩ := x
    have ht : t.IsIndependent config := hindependent _ (List.mem_cons_self ..)
    have htests := fun y hy => hindependent y (List.mem_cons_of_mem _ hy)
    rw [exchangesOf, prepareAll_cons] at hanswered
    rw [prepareAll_cons] at h
    rcases hp : t.prepare.run.run context with ⟨f | request, left⟩
    · rw [hp] at hanswered h
      cases hanswered with
      | none hrest =>
        obtain ⟨last, hlast, rfl⟩ := Program.Does.of_notes_bind h
        obtain ⟨p', deeds, hv, hjudges⟩ := ih htests hrest hlast
        have hdeed : (Deed.refused t config f).Explains policy (.test t config) []
            (TestResult.failed t t.url f).notes (some (.failed t t.url f)) :=
          ⟨rfl, ⟨context, left, hp⟩, rfl, rfl, .refl _⟩
        refine ⟨p', .refused t config f :: deeds, hv, ?_⟩
        rw [List.filterMap_append, Act.filterMap_note?_map]
        exact hjudges.cons ht hp hdeed rfl rfl
    · rw [hp] at hanswered h
      cases hanswered with
      | @some _ reply _ replies rest hrest =>
        obtain ⟨last, hlast, rfl⟩ := Program.Does.of_notes_bind h
        obtain ⟨p', deeds, hv, hjudges⟩ := ih htests hrest hlast
        have hdeed : (Deed.judged t config request reply p.context).Explains policy
            (.test t config) [(config.exchange policy request, some reply)]
            (t.judge config request reply p.context).notes
            (some (t.judge config request reply p.context).result) := by
          refine ⟨rfl, ⟨context, left, hp⟩, rfl, rfl, ?_⟩
          rw [Deed.notes, Test.promptNotes, ht.interactive]
          exact .refl _
        refine ⟨p', .judged t config request reply p.context :: deeds, hv, ?_⟩
        rw [List.filterMap_append, Act.filterMap_note?_map]
        exact hjudges.cons ht hp hdeed rfl rfl

/-- **Tests that are left before all replies have come in**, prepared one after another. -/
theorem exists_deeds_unanswered (policy : RetryPolicy) {tests : List (Test × Config)}
    (hindependent : ∀ x ∈ tests, x.1.IsIndependent x.2) (context : Context) :
    ∃ deeds, Deed.Account policy (tests.map fun x => .test x.1 x.2)
        ((Exchange.unanswered (exchangesOf policy tests context)).filterMap Act.exchange?) []
        deeds ∧ (∀ d ∈ deeds, d.isOver = false) ∧
      exchangesOf policy tests context = deeds.map fun d => (d.exchange? policy).map Prod.fst := by
  induction tests generalizing context with
  | nil => exact ⟨[], .nil policy [] [], fun d hd => (nomatch hd), rfl⟩
  | cons x tests ih =>
    obtain ⟨t, config⟩ := x
    have ht : t.IsIndependent config := hindependent _ (List.mem_cons_self ..)
    rw [exchangesOf, prepareAll_cons]
    rcases hp : t.prepare.run.run context with ⟨request, left⟩
    obtain ⟨deeds, haccount, hleft, hxs⟩ :=
      ih (fun y hy => hindependent y (List.mem_cons_of_mem _ hy)) left
    have hdeed : (Deed.prepared t config request).Explains policy (.test t config)
        ((config.exchange? policy request).map fun x => (x, none)).toList [] none := by
      refine ⟨rfl, ⟨context, left, hp⟩, rfl, rfl, ?_⟩
      cases request with
      | error f => exact .slnil
      | ok request =>
        rw [Deed.notes, Test.promptNotes, ht.interactive]
        exact .slnil
    refine ⟨.prepared t config request :: deeds, ?_, List.forall_mem_cons.mpr ⟨rfl, hleft⟩, ?_⟩
    · have hcons := haccount.cons hdeed
      cases request <;> exact hcons
    · cases request <;> exact congrArg (_ :: ·) hxs

/-- Judging has no cues. -/
theorem cues_of_judgeAll
    {judged : List ((Test × Config) × Except Failure Request × Option Reply)} {p : Progress}
    {v : Option Progress} {acts : List Act} (h : (judgeAll judged p).Does acts v) :
    acts.filter Act.isCue = [] := by
  induction judged generalizing p acts with
  | nil =>
    cases h
    rfl
  | cons x rest ih =>
    obtain ⟨later, hlater, rfl⟩ := Program.Does.of_notes_bind h
    rw [List.filter_append, Act.filter_isCue_map, List.filter_append, filter_isPause_lines,
      TestResult.filter_isPause_notes, ih hlater]
    rfl

/-- **Tests side by side**, in a set that counts as independent. -/
theorem exists_deeds_runParallel {tests : List (Test × Config)}
    (hindependent : ∀ x ∈ tests, x.1.IsIndependent x.2) {p : Progress} {v : Option Progress}
    {acts : List Act} (h : (runParallel policy tests p).Does acts v) :
    ∃ deeds, Deed.Account policy (tests.map fun x => .test x.1 x.2)
        (acts.filterMap Act.exchange?) (acts.filterMap Act.note?) deeds ∧
      (∀ d ∈ deeds, d.isOver = v.isSome) ∧
      exchangesOf policy tests p.context =
        deeds.map (fun d => (d.exchange? policy).map Prod.fst) ∧
      ∀ p', v = some p' → ∃ results, p'.results = p.results ++ results ∧
        p'.stoppedEarly = p.stoppedEarly ∧
        Deed.Ends (tests.map fun x => .test x.1 x.2) results false deeds := by
  rw [runParallel] at h
  rcases Program.Does.of_bind h with ⟨first, replies, later, hfirst, hlater, rfl⟩ | ⟨hleft, rfl⟩
  · obtain ⟨_, hreplies, hanswered⟩ | ⟨hnone, -⟩ := hfirst.of_performAll
    · cases hreplies
      obtain ⟨p', deeds, rfl, hjudges⟩ := exists_deeds_judgeAll hindependent hanswered hlater
      obtain ⟨results, hresults, hstopped, hends⟩ := hjudges.exists_ends
      refine ⟨deeds, ?_, hends.isOver, hjudges.exchangesOf_eq, fun p'' hp'' => ?_⟩
      · rw [List.filterMap_append, List.filterMap_append, hanswered.filterMap_note?,
          Act.filterMap_exchange?_eq_nil (cues_of_judgeAll hlater), List.append_nil,
          List.nil_append]
        exact hjudges.account
      · cases hp''
        exact ⟨results, hresults, hstopped, hends⟩
    · cases hnone
  · obtain ⟨_, hreplies, -⟩ | ⟨-, rfl⟩ := hleft.of_performAll
    · cases hreplies
    · obtain ⟨deeds, haccount, hleft, hxs⟩ :=
        exists_deeds_unanswered policy hindependent p.context
      have hnotes : ((Exchange.unanswered (exchangesOf policy tests p.context)).filterMap
          Act.note?) = [] := by
        refine List.filterMap_eq_nil_iff.mpr fun act hact => ?_
        obtain ⟨x, -, hx⟩ := List.mem_filterMap.mp hact
        obtain ⟨x, rfl, rfl⟩ := Option.map_eq_some_iff.mp hx
        rfl
      rw [← hnotes] at haccount
      refine ⟨deeds, haccount, hleft, hxs, ?_⟩
      intro p' hp'
      cases hp'

/-! ## Sets -/

/-- The deeds account for what a set does and comes to, if it comes to an outcome. -/
structure Did (policy : RetryPolicy) (s : TestSet) (acts : List Act) (v : Option Outcome)
    (deeds : List Deed) : Prop where
  account : Deed.Account policy s.steps (acts.filterMap Act.exchange?)
    (acts.filterMap Act.note?) deeds
  ends : ∀ o, v = some o → Deed.Ends s.steps o.results o.stoppedEarly deeds

variable {s : TestSet} {env : Environment} {o : Option Outcome}

/-- What is done of a set is done of its tests or steps; the outcome says what these come to. -/
theorem does_of_bind {q : Program Progress}
    (h : (q >>= fun p => (pure ⟨s.name, p.results, p.context, p.stoppedEarly,
      s.config.skipTermColors⟩ : Program Outcome)).Does acts o) :
    ∃ v, q.Does acts v ∧ o.isSome = v.isSome ∧ ∀ outcome, o = some outcome →
      ∃ p, v = some p ∧ outcome.results = p.results ∧ outcome.stoppedEarly = p.stoppedEarly := by
  rcases h.of_bind with ⟨first, p, rest, hfirst, hrest, rfl⟩ | ⟨hleft, rfl⟩
  · obtain ⟨rfl, rfl⟩ := hrest.of_pure
    rw [List.append_nil]
    refine ⟨some p, hfirst, rfl, fun outcome houtcome => ?_⟩
    cases houtcome
    exact ⟨p, rfl, rfl, rfl⟩
  · exact ⟨none, hleft, rfl, fun outcome houtcome => nomatch houtcome⟩

/-- A set that sends its tests side by side. -/
theorem exists_deeds_of_parallel (hp : (s.config.testParallel && s.isIndependent) = true)
    (h : (s.run policy env).Does acts o) :
    ∃ deeds, s.Did policy acts o deeds ∧ (∀ d ∈ deeds, d.isOver = o.isSome) ∧
      exchangesOf policy s.tests (s.config.newContext env) =
        deeds.map fun d => (d.exchange? policy).map Prod.fst := by
  obtain ⟨hsteps, hindependent⟩ := steps_eq_of_isIndependent (Bool.and_eq_true_iff.mp hp).2
  rw [run, hp] at h
  obtain ⟨v, hv, hsome, houtcome⟩ := does_of_bind h
  obtain ⟨deeds, haccount, hover, hxs, hends⟩ := exists_deeds_runParallel hindependent hv
  rw [← hsteps] at haccount hends
  refine ⟨deeds, ⟨haccount, fun outcome ho => ?_⟩, ?_, hxs⟩
  · obtain ⟨p, hp, hresults, hstopped⟩ := houtcome outcome ho
    obtain ⟨results, hresults', hstopped', hended⟩ := hends p hp
    rw [hresults, hstopped, hresults', hstopped']
    exact hended
  · rw [hsome]
    exact hover

/-- A set that carries out its steps in order. -/
theorem exists_deeds_of_inOrder (hp : (s.config.testParallel && s.isIndependent) = false)
    (h : (s.run policy env).Does acts o) :
    ∃ deeds, s.Did policy acts o deeds ∧
      acts.filter Act.isCue = deeds.flatMap (Deed.cues policy) ∧
      ∀ d ∈ deeds.dropLast, d.isOver = true := by
  rw [run, hp] at h
  obtain ⟨v, hv, -, houtcome⟩ := does_of_bind h
  obtain ⟨deeds, hrecounts⟩ := exists_recounts (.inl hv)
  refine ⟨deeds, ⟨hrecounts.account, fun outcome ho => ?_⟩, hrecounts.cues, hrecounts.isOver⟩
  obtain ⟨p, hp, hresults, hstopped⟩ := houtcome outcome ho
  obtain ⟨results, stopped, hresults', hstopped', hended⟩ := hrecounts.ends p hp
  rw [hresults, hstopped, hresults', hstopped']
  exact hended

/-- **Whatever a set may have done**, there are deeds that account for it. -/
theorem exists_deeds (h : (s.run policy env).MayHaveDone acts o) :
    ∃ deeds, s.Did policy acts o deeds := by
  rcases h with h | ⟨rfl, rfl⟩
  swap
  · exact ⟨[], .nil policy s.steps [], fun o ho => nomatch ho⟩
  cases hp : s.config.testParallel && s.isIndependent with
  | true =>
    obtain ⟨deeds, hdid, -⟩ := exists_deeds_of_parallel hp h
    exact ⟨deeds, hdid⟩
  | false =>
    obtain ⟨deeds, hdid, -⟩ := exists_deeds_of_inOrder hp h
    exact ⟨deeds, hdid⟩

end TestSet

end HttpSuite
