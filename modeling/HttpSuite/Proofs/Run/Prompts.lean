import HttpSuite.Proofs.Run.Deeds
import HttpSuite.Proofs.Run.Performances
import HttpSuite.Proofs.Settings

/-!
# Prompts

An interactive test waits for the user before it is sent.  It does so once, after all that the tests
before it have sent and before its own first attempt; further attempts do not wait again, and a test
without a request does not wait at all.

A run that breaks off may leave a test behind that has been prompted for and has no reply.  Up to
then it prompts as every run does.

That is easy to see of steps in order: a program that never exchanges side by side
(`Program.Serial`) shows its acts one after the other, and what a run of steps waits for are the
cues of its deeds.  Tests side by side could not wait for the user at all.  So it matters that a set
with an interactive test never counts as independent, also where settings have made its tests
interactive after it was compiled.

The main statement is `RunOptions.run_prompts`.
-/

namespace HttpSuite

variable {σ α β : Type}

def Signal.isPause : Signal → Bool
  | paused _ => true
  | sent _ _ => false

/-! ## Acts in order -/

namespace Act

/-- What is seen of an act. -/
def Shows : Act → List Signal → Prop
  | note n, signals => signals = n.signal?.toList
  | exchange x reply, signals => x.Tries reply.isSome signals

/-- What is seen of acts one after another. -/
inductive ShowInOrder : List Act → List Signal → Prop where
  | nil : ShowInOrder [] []
  | cons {act : Act} {acts : List Act} {shown signals : List Signal} (h : act.Shows shown)
      (rest : ShowInOrder acts signals) : ShowInOrder (act :: acts) (shown ++ signals)

namespace ShowInOrder

theorem append {acts later : List Act} {shown signals : List Signal} (h : ShowInOrder acts shown)
    (h' : ShowInOrder later signals) : ShowInOrder (acts ++ later) (shown ++ signals) := by
  induction h with
  | nil => exact h'
  | cons h _ ih =>
    rw [List.append_assoc]
    exact .cons h ih

theorem of_append {acts later : List Act} {signals : List Signal}
    (h : ShowInOrder (acts ++ later) signals) :
    ∃ shown rest, signals = shown ++ rest ∧ ShowInOrder acts shown ∧ ShowInOrder later rest := by
  induction acts generalizing signals with
  | nil => exact ⟨[], signals, rfl, .nil, h⟩
  | cons act acts ih =>
    cases h with
    | cons hact h =>
      obtain ⟨shown, rest, rfl, hacts, hlater⟩ := ih h
      exact ⟨_, rest, (List.append_assoc ..).symm, .cons hact hacts, hlater⟩

/-- Only cues are seen. -/
theorem cues {acts : List Act} {signals : List Signal} (h : ShowInOrder acts signals) :
    ShowInOrder (acts.filter isCue) signals := by
  induction h with
  | nil => exact .nil
  | @cons act acts shown signals hact _ ih =>
    match act, hact with
    | exchange x reply, hact => exact .cons hact ih
    | note (.pause message), hact => exact .cons hact ih
    | note (.line text), hact =>
      cases hact
      exact ih
    | note (.log level text), hact =>
      cases hact
      exact ih

end ShowInOrder

end Act

/-! ## One exchange at a time -/

namespace Program

/-- The program never exchanges side by side. -/
def Serial : Program α → Prop
  | done _ => True
  | note _ next => next.Serial
  | sleep _ next => next.Serial
  | exchange _ next => ∀ reply, (next reply).Serial
  | exchanges _ _ => False

theorem Serial.bind {p : Program α} {f : α → Program β} (hp : p.Serial)
    (hf : ∀ a, (f a).Serial) : (p >>= f).Serial := by
  change (p.bind f).Serial
  induction p with
  | done a => exact hf a
  | note n next ih => exact ih hp
  | sleep d next ih => exact ih hp
  | exchange x next ih => exact fun reply => ih reply (hp reply)
  | exchanges xs next => exact hp.elim

theorem serial_pure (a : α) : (pure a : Program α).Serial := trivial

theorem serial_notes (ns : List Note) : (notes ns).Serial := by
  induction ns with
  | nil => trivial
  | cons n rest ih => exact ih

theorem serial_pause (d : Duration) : (pause d).Serial := trivial

theorem serial_perform (x : Exchange) : (perform x).Serial := fun _ => trivial

/-- **One exchange at a time** shows the acts in order. -/
theorem Shows.inOrder {p : Program α} {acts : List Act} {signals : List Signal} {v : Option α}
    (h : p.Shows acts signals v) (hp : p.Serial) : Act.ShowInOrder acts signals := by
  induction h with
  | done a => exact .nil
  | note _ ih => exact .cons rfl (ih hp)
  | sleep _ ih => exact ih hp
  | exchange reply tries _ ih => exact .cons tries (ih (hp reply))
  | exchanges => exact hp.elim
  | asleep => exact .nil
  | @unanswered x next shown tries =>
    have hsingle : Act.ShowInOrder [.exchange x none] (shown ++ []) := .cons tries .nil
    rwa [List.append_nil] at hsingle
  | unansweredAll => exact hp.elim

end Program

theorem Operation.serial_run (op : Operation) (context : Context) : (op.run context).Serial := by
  cases op with
  | print message =>
    rw [run]
    split <;> trivial
  | delay d => trivial
  | bind bindings =>
    rw [run]
    split <;> trivial

theorem Test.serial_run (policy : RetryPolicy) (t : Test) (config : Config) (context : Context) :
    (t.run policy config context).Serial := by
  rw [run]
  split
  · exact (Program.serial_notes _).bind fun _ => Program.serial_pure _
  · rename_i request left _
    have hjudged : (Program.perform (config.exchange policy request) >>= fun reply => do
        Program.notes ((t.judge config request reply left).lines.map .line ++
          (t.judge config request reply left).result.notes)
        return ((t.judge config request reply left).result,
          (t.judge config request reply left).context)).Serial :=
      (Program.serial_perform _).bind fun _ => (Program.serial_notes _).bind fun _ =>
        Program.serial_pure _
    cases config.interactive with
    | false => exact hjudged
    | true => exact (Program.serial_notes _).bind fun _ => hjudged

/-! ## Deeds -/

namespace Deed

/-- Whether the deed is an interactive test with a request. -/
def prompts : Deed → Bool
  | prepared _ config (.ok _) => config.interactive
  | judged _ config _ _ _ => config.interactive
  | _ => false

/-- What is seen of a test with a request that is sent a number of times: it prompts once, if it is
interactive, and all that is sent follows. -/
def sendings (config : Config) (request : Request) (n : Nat) : List Signal :=
  (if config.interactive then [.paused "Press ENTER when ready"] else []) ++
    List.replicate n (.sent request ⟨config.timeout, config.sslInsecure, config.verbose⟩)

/-- What is seen of a deed.  The request of a test is sent once for each attempt, of which there is
a first if there is a reply; nothing is seen of any other deed. -/
def Shows : Deed → List Signal → Prop
  | prepared _ config (.ok request), signals =>
    ∃ n ≤ config.retries + 1, signals = sendings config request n
  | judged _ config request _ _, signals =>
    ∃ n ≤ config.retries, signals = sendings config request (n + 1)
  | _, signals => signals = []

theorem countP_isPause_sendings (config : Config) (request : Request) (n : Nat) :
    (sendings config request n).countP Signal.isPause = if config.interactive then 1 else 0 := by
  have hsends (s : Signal) (hs : s.isPause = false) :
      (List.replicate n s).countP Signal.isPause = 0 :=
    List.countP_eq_zero.mpr fun s' hs' => by
      rw [List.eq_of_mem_replicate hs', hs]
      exact Bool.false_ne_true
  rw [sendings, List.countP_append, hsends _ rfl]
  cases config.interactive <;> rfl

theorem Shows.countP_isPause {d : Deed} {signals : List Signal} (h : d.Shows signals) :
    signals.countP Signal.isPause = if d.prompts then 1 else 0 := by
  match d, h with
  | prepared t config (.ok request), ⟨n, _, hsignals⟩ =>
    rw [hsignals, countP_isPause_sendings]
    rfl
  | judged t config request reply context, ⟨n, _, hsignals⟩ =>
    rw [hsignals, countP_isPause_sendings]
    rfl
  | prepared _ _ (.error _), h => rw [h]; rfl
  | refused _ _ _, h => rw [h]; rfl
  | operated _ _, h => rw [h]; rfl
  | configured _, h => rw [h]; rfl

variable {policy : RetryPolicy}

/-- A prompt and an exchange, one after the other. -/
theorem exists_sendings {config : Config} {request : Request} {reply : Option Reply}
    {signals : List Signal} (h : Act.ShowInOrder
      (prompt config ++ [.exchange (config.exchange policy request) reply]) signals) :
    ∃ n ≤ config.retries + 1, (reply.isSome = true → 0 < n) ∧
      signals = sendings config request n := by
  obtain ⟨first, sends, rfl, hprompt, hsends⟩ := h.of_append
  cases hsends with
  | cons hsent hrest =>
    obtain ⟨n, hn, hpos, rfl⟩ := hsent
    cases hrest
    refine ⟨n, hn, hpos, ?_⟩
    rw [List.append_nil, sendings]
    refine congrArg (· ++ _) ?_
    rw [prompt] at hprompt
    cases hi : config.interactive with
    | false =>
      rw [hi] at hprompt
      cases hprompt
      rfl
    | true =>
      rw [hi] at hprompt
      cases hprompt with
      | cons hpause hnone =>
        cases hpause
        cases hnone
        rfl

theorem shows_judged {t : Test} {config : Config} {request : Request} {reply : Reply}
    {context : Context} {signals : List Signal} {n : Nat} (hn : n ≤ config.retries + 1)
    (hpos : 0 < n) (h : signals = sendings config request n) :
    (judged t config request reply context).Shows signals :=
  ⟨n - 1, by omega, by rw [h, Nat.sub_add_cancel hpos]⟩

/-- The cues of a deed are what is seen of it. -/
theorem shows_of_cues {d : Deed} {signals : List Signal}
    (h : Act.ShowInOrder (d.cues policy) signals) : d.Shows signals := by
  match d with
  | prepared t config (.ok request) =>
    obtain ⟨n, hn, -, hsignals⟩ := exists_sendings h
    exact ⟨n, hn, hsignals⟩
  | judged t config request reply context =>
    obtain ⟨n, hn, hpos, hsignals⟩ := exists_sendings h
    exact shows_judged hn (hpos rfl) hsignals
  | prepared _ _ (.error _) | refused _ _ _ | operated _ _ | configured _ =>
    cases h
    rfl

/-- Cues in order are seen deed by deed. -/
theorem exists_parts {deeds : List Deed} {signals : List Signal}
    (h : Act.ShowInOrder (deeds.flatMap (cues policy)) signals) :
    ∃ parts, List.Forall₂ Shows deeds parts ∧ signals = parts.flatten := by
  induction deeds generalizing signals with
  | nil =>
    cases h
    exact ⟨[], .nil, rfl⟩
  | cons d deeds ih =>
    rw [List.flatMap_cons] at h
    obtain ⟨shown, rest, rfl, hd, hrest⟩ := h.of_append
    obtain ⟨parts, hparts, rfl⟩ := ih hrest
    exact ⟨shown :: parts, .cons (shows_of_cues hd) hparts, rfl⟩

/-- Without a prompt, only the exchange of a deed is seen. -/
theorem shows_of_triesIfAny {d : Deed} (hd : d.prompts = false) {signals : List Signal}
    (h : Exchange.TriesIfAny d.isOver ((d.exchange? policy).map Prod.fst) signals) :
    d.Shows signals := by
  have hsendings {config : Config} (hi : config.interactive = false) (request : Request) (n : Nat) :
      List.replicate n (config.exchange policy request).signal = sendings config request n := by
    rw [sendings, hi]
    rfl
  match d with
  | prepared t config (.ok request) =>
    obtain ⟨n, hn, -, rfl⟩ := h
    exact ⟨n, hn, hsendings hd request n⟩
  | judged t config request reply context =>
    obtain ⟨n, hn, hpos, rfl⟩ := h
    exact shows_judged hn (hpos rfl) (hsendings hd request n)
  | prepared _ _ (.error _) | refused _ _ _ | operated _ _ | configured _ => exact h

/-- Among the signals of deeds there is one pause for each that prompts. -/
theorem countP_isPause_flatten {deeds : List Deed} {parts : List (List Signal)}
    (h : List.Forall₂ Shows deeds parts) :
    parts.flatten.countP Signal.isPause = deeds.countP prompts := by
  induction h with
  | nil => rfl
  | cons hd _ ih =>
    rw [List.flatten_cons, List.countP_append, ih, hd.countP_isPause, List.countP_cons,
      Nat.add_comm]

end Deed

/-! ## Sets -/

namespace TestSet

variable {policy : RetryPolicy}

theorem serial_runSteps (steps : List Step) (p : Progress) :
    (runSteps policy steps p).Serial := by
  induction steps generalizing p with
  | nil => trivial
  | cons step rest ih =>
    cases step with
    | operation op =>
      rw [runSteps]
      refine (op.serial_run p.context).bind fun r => ?_
      split
      · exact ih _
      · exact (Program.serial_notes _).bind fun _ => ih _
    | configure change => exact ih _
    | test t config =>
      rw [runSteps]
      refine (t.serial_run policy config p.context).bind fun r => ?_
      dsimp only
      split
      · exact (Program.serial_notes _).bind fun _ => Program.serial_pure _
      cases t.delay with
      | none => exact ih _
      | some d => exact (Program.serial_pause d).bind fun _ => ih _

theorem serial_judgeAll
    (judged : List ((Test × Config) × Except Failure Request × Option Reply)) (p : Progress) :
    (judgeAll judged p).Serial := by
  induction judged generalizing p with
  | nil => trivial
  | cons x rest ih =>
    obtain ⟨⟨t, config⟩, request, reply⟩ := x
    cases request <;> cases reply <;> exact (Program.serial_notes _).bind fun _ => ih _

/-- Judging is not seen. -/
theorem signals_of_judgeAll
    {judged : List ((Test × Config) × Except Failure Request × Option Reply)} {p : Progress}
    {v : Option Progress} {acts : List Act} {signals : List Signal}
    (h : (judgeAll judged p).Shows acts signals v) : signals = [] := by
  have hcues := (h.inOrder (serial_judgeAll judged p)).cues
  rw [cues_of_judgeAll h.does] at hcues
  cases hcues
  rfl

variable {s : TestSet} {env : Environment} {acts : List Act} {signals : List Signal}
  {o : Option Outcome}

/-- What is seen of a set in order are its acts in order. -/
theorem inOrder_of_shows (hp : (s.config.testParallel && s.isIndependent) = false)
    (h : (s.run policy env).Shows acts signals o) : Act.ShowInOrder acts signals := by
  refine h.inOrder ?_
  rw [run, hp]
  exact (serial_runSteps s.steps _).bind fun _ => Program.serial_pure _

/-- What is seen of tests side by side are their exchanges. -/
theorem exists_parts_of_runParallel {tests : List (Test × Config)} {p : Progress}
    {v : Option Progress} (h : (runParallel policy tests p).Shows acts signals v) :
    ∃ parts, List.Forall₂ (Exchange.TriesIfAny v.isSome) (exchangesOf policy tests p.context)
        parts ∧ Merges parts signals := by
  rw [runParallel] at h
  rcases Program.Shows.of_bind h with ⟨_, _, _, _, _, hperformed, hjudged, -, rfl⟩ | ⟨hleft, rfl⟩
  · rw [signals_of_judgeAll hjudged, List.append_nil]
    obtain ⟨parts, htries, hmerges⟩ := hperformed.of_performAll
    exact ⟨parts, htries.imp fun _ _ h => h.of_answered _, hmerges⟩
  · exact hleft.of_performAll

theorem exists_parts_of_shows (hp : (s.config.testParallel && s.isIndependent) = true)
    (h : (s.run policy env).Shows acts signals o) :
    ∃ parts, List.Forall₂ (Exchange.TriesIfAny o.isSome)
        (exchangesOf policy s.tests (s.config.newContext env)) parts ∧ Merges parts signals := by
  rw [run, hp] at h
  rcases Program.Shows.of_bind h with
    ⟨_, _, _, _, _, hparallel, hrest, -, rfl⟩ | ⟨hleft, rfl⟩
  · obtain ⟨-, rfl, rfl⟩ := hrest.of_pure
    rw [List.append_nil]
    exact exists_parts_of_runParallel hparallel
  · exact exists_parts_of_runParallel hleft

/-- How a set prompts in a run of which its deeds are the account, and its parts what is seen of
these. -/
structure Prompts (policy : RetryPolicy) (s : TestSet) (run : Program.Performance Outcome)
    (deeds : List Deed) (parts : List (List Signal)) : Prop where
  did : s.Did policy run.acts run.value deeds
  shows : List.Forall₂ Deed.Shows deeds parts
  /-- What is seen of the set is what is seen of its deeds. -/
  merges : Merges parts run.signals
  /-- Each deed is over before the next one begins, unless tests are sent side by side. -/
  inOrder : (s.config.testParallel && s.isIndependent) = false →
    run.signals = parts.flatten ∧ ∀ d ∈ deeds.dropLast, d.isOver = true
  /-- Tests that are sent side by side do not prompt. -/
  unprompted : (s.config.testParallel && s.isIndependent) = true → ∀ d ∈ deeds, d.prompts = false
  /-- There is one pause for each interactive test with a request. -/
  pauses : run.signals.countP Signal.isPause = deeds.countP Deed.prompts

/-- A set with an interactive test does not count as independent. -/
theorem isIndependent_eq_false (h : s.isInteractive = true) :
    s.isIndependent = false := by
  rw [Bool.eq_false_iff]
  intro hi
  obtain ⟨x, hx, hinteractive⟩ := List.any_eq_true.mp h
  rw [((steps_eq_of_isIndependent hi).2 x hx).interactive] at hinteractive
  cases hinteractive

/-- Deeds of independent tests do not prompt. -/
theorem prompts_eq_false {tests : List (Test × Config)}
    (hindependent : ∀ x ∈ tests, x.1.IsIndependent x.2) {d : Deed}
    (hd : d.step ∈ tests.map fun x => Step.test x.1 x.2) : d.prompts = false := by
  have htest {t : Test} {config : Config}
      (ht : Step.test t config ∈ tests.map fun x => Step.test x.1 x.2) :
      config.interactive = false := by
    obtain ⟨x, hx, hstep⟩ := List.mem_map.mp ht
    cases hstep
    exact (hindependent x hx).interactive
  match d with
  | .prepared t config (.ok request) => exact htest hd
  | .judged t config request reply context => exact htest hd
  | .prepared _ _ (.error _) | .refused _ _ _ | .operated _ _ | .configured _ => rfl

/-- A set that is not sent side by side runs as one that may not be. -/
theorem run_eq_sequential (h : (s.config.testParallel && s.isIndependent) = false)
    (env : Environment) : s.run policy env = s.sequential.run policy env := by
  have hconfig : s.sequential.config.testParallel = false := rfl
  rw [run, run, h, hconfig, Bool.false_and]
  rfl

/-- **However a set may run**, it prompts as its deeds do. -/
theorem exists_prompts {r : Program.Performance Outcome}
    (h : (s.run policy env).MayHaveShown r.acts r.signals r.value) :
    ∃ deeds parts, s.Prompts policy r deeds parts := by
  rcases h with h | ⟨hacts, hsignals, hvalue⟩
  swap
  · obtain ⟨acts, signals, value⟩ := r
    cases hacts
    cases hsignals
    cases hvalue
    exact ⟨[], [], ⟨.nil policy s.steps [], fun o ho => nomatch ho⟩, .nil,
      .nil fun part hpart => (nomatch hpart), fun _ => ⟨rfl, fun d hd => nomatch hd⟩,
      fun _ d hd => (nomatch hd), rfl⟩
  cases hp : s.config.testParallel && s.isIndependent with
  | true =>
    obtain ⟨hsteps, hindependent⟩ := steps_eq_of_isIndependent (Bool.and_eq_true_iff.mp hp).2
    obtain ⟨deeds, hdid, hover, hxs⟩ := exists_deeds_of_parallel hp h.does
    obtain ⟨parts, htries, hmerges⟩ := exists_parts_of_shows hp h
    have hunprompted : ∀ d ∈ deeds, d.prompts = false := fun d hd =>
      prompts_eq_false hindependent
        (hsteps ▸ hdid.account.first.subset (List.mem_map_of_mem hd))
    rw [hxs] at htries
    have hshows : List.Forall₂ Deed.Shows deeds parts :=
      ((List.forall₂_and_left deeds parts).mpr
        ⟨fun d hd => And.intro (hunprompted d hd) (hover d hd),
          List.forall₂_map_left_iff.mp htries⟩).imp fun d part hd =>
            Deed.shows_of_triesIfAny hd.1.1 (hd.1.2 ▸ hd.2)
    exact ⟨deeds, parts, hdid, hshows, hmerges, (fun h' => nomatch hp.symm.trans h'),
      (fun _ => hunprompted),
      (hmerges.perm.countP_eq _).trans (Deed.countP_isPause_flatten hshows)⟩
  | false =>
    obtain ⟨deeds, hdid, hcues, hover⟩ := exists_deeds_of_inOrder hp h.does
    have horder := (inOrder_of_shows hp h).cues
    rw [hcues] at horder
    obtain ⟨parts, hshows, hsignals⟩ := Deed.exists_parts horder
    refine ⟨deeds, parts, hdid, hshows, ?_, (fun _ => ⟨hsignals, hover⟩),
      (fun h' => nomatch hp.symm.trans h'), ?_⟩
    · rw [hsignals]
      exact .flatten parts
    · rw [hsignals]
      exact Deed.countP_isPause_flatten hshows

end TestSet

/-! ## Runs of sets -/

/-- Settings that switch the prompts on do so for every test. -/
theorem Settings.interactive_of_applyToSets {s : Settings} (hs : s.interactive = some true)
    {documents sets : List TestSet} (h : s.applyToSets documents = .ok sets) :
    ∀ set ∈ sets, ∀ x ∈ set.tests, x.2.interactive = true := by
  intro set hset x hx
  obtain ⟨document, -, hforces⟩ := exists_left_of_forall₂ (applyToSets_spec h).1 hset
  obtain ⟨step, hstep, hsome⟩ := List.mem_filterMap.mp hx
  obtain ⟨old, -, hforced⟩ := exists_left_of_forall₂ hforces.steps hstep
  cases hforced with
  | test hconfig =>
    cases hsome
    exact (hconfig.switches (Settings.interactive, Config.interactive) (by simp [switches])).mpr
      (.inl hs)
  | operation op => cases hsome
  | configure change => cases hsome

namespace RunOptions

open Program (Performance)

variable {t : Transport σ}

/-- **Prompts in every run**, in order or side by side and against any transport.  What is seen of a
run is what is seen of its sets, and each of them prompts as its deeds do: once for every
interactive test with a request, after all that the tests before it have sent and before its own
first attempt.  Where the run breaks off this is so up to then, and there is no report.  A set with
an interactive test never sends its tests side by side, whatever its configuration asks for; and
settings that switch the prompts on make every test interactive. -/
theorem run_prompts (o : RunOptions) (t : Transport σ) (env : Environment) (sets : List TestSet)
    (w : World σ) :
    (∃ (runs : List (Performance Outcome)) (merged : List Signal),
      (o.run t env sets w).1.toOption = (runs.mapM Performance.value).map Report.ofOutcomes ∧
      (o.run t env sets w).2.signals = w.signals ++ merged ∧
      Merges (runs.map Performance.signals) merged ∧
      (o.concurrent = false → merged = (runs.map Performance.signals).flatten) ∧
      List.Forall₂ (fun s run => (s.run o.retry env).MayHaveDone run.acts run.value ∧
        ∃ deeds parts, s.Prompts o.retry run deeds parts) sets runs) ∧
    (∀ s ∈ sets, s.isInteractive = true → s.isIndependent = false ∧
      s.run o.retry env = s.sequential.run o.retry env) ∧
    ∀ (settings : Settings) (documents : List TestSet), settings.interactive = some true →
      settings.applyToSets documents = .ok sets → ∀ s ∈ sets, ∀ x ∈ s.tests,
        x.2.interactive = true := by
  refine ⟨?_, fun s _ hs => ?_, fun settings documents hon happlied =>
    Settings.interactive_of_applyToSets hon happlied⟩
  · obtain ⟨runs, merged, hruns, hreport, hmerges, horder, hgives⟩ :=
      o.exists_performances t env sets w
    exact ⟨runs, merged, hreport, hgives.signals_eq, hmerges, horder,
      hruns.imp fun s run hrun => ⟨hrun.mayHaveDone, TestSet.exists_prompts hrun⟩⟩
  · have hdependent := TestSet.isIndependent_eq_false hs
    exact ⟨hdependent, TestSet.run_eq_sequential (by rw [hdependent, Bool.and_false]) env⟩

/-- Two tests that may be sent side by side, and may be retried. -/
def hasty : TestSet where
  steps := [.test (.ofUrl "http://h/a") { retries := 1 }, .test (.ofUrl "http://h/b") {}]
  config := { testParallel := true }
  source := none

/-- Settings that switch the prompts on. -/
def attentive : Settings := { interactive := some true }

/-- The set `hasty` with the prompts switched on. -/
def hastened : TestSet where
  steps := [.test (.ofUrl "http://h/a") { retries := 1, interactive := true },
    .test (.ofUrl "http://h/b") { interactive := true }]
  config := { testParallel := true, interactive := true }
  source := none

/-- A transport that always fails. -/
def failing : Transport Unit := .constant ⟨3, .error (.network "down")⟩

/-- Against a transport that fails, the tests of `hasty` are sent side by side.  With the prompts
switched on they are sent one after the other: each waits once, and its attempts follow. -/
theorem run_prompts_attentive :
    (({} : RunOptions).run failing [] [hasty] (World.start ())).2.signals.map Signal.isPause =
        [false, false, false] ∧
    ∃ s, attentive.applyToSets [hasty] = .ok [s] ∧ s.config.testParallel = true ∧
      (∀ x ∈ s.tests, x.2.interactive = true) ∧
      s.run {} [] = s.sequential.run {} [] ∧
      (({} : RunOptions).run failing [] [s] (World.start ())).2.signals.map Signal.isPause =
        [true, false, false, true, false] := by
  have happlied : attentive.applyToSets [hasty] = .ok [hastened] := rfl
  obtain ⟨-, hinteractive, hswitched⟩ := run_prompts {} failing [] [hastened] (World.start ())
  have hmem := List.mem_singleton_self hastened
  refine ⟨by decide +kernel, _, happlied, rfl, hswitched attentive [hasty] rfl happlied _ hmem,
    (hinteractive _ hmem ?_).2, ?_⟩
  · decide +kernel
  · decide +kernel

end RunOptions

end HttpSuite
