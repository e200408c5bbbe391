import HttpSuite.Proofs.Run.Deeds
import HttpSuite.Proofs.Run.Performances
import HttpSuite.Proofs.Suite.Calm
import HttpSuite.Proofs.Suite.OwnSet
import HttpSuite.Settings.Suite

/-!
# Settings in force

The settings of a run win over what the documents say, in every file and at every test.  They are
put into the sets after these have been compiled: into the configuration of each set and into the
one that each test keeps, and nowhere else.

`Settings.Forces` says field by field what that makes of a configuration, `Settings.ForcesSet` what
it makes of a set.  The main statement is `Settings.compileSuite_forces`: the sets that are run are
those of the documents with the settings in force, once and for all, and in a run of them every test
is sent and judged under such a configuration.  For what a run does it relies on
`TestSet.exists_deeds`, so the steps between the tests play no part in it.
-/

namespace HttpSuite

namespace Settings

/-! ## Configurations -/

/-- The flags that settings can switch on, each as a field of settings and of configurations. -/
def switches : List ((Settings → Option Bool) × (Config → Bool)) :=
  [(printBodies, Config.printBodies), (printHeaders, Config.printHeaders),
    (sslInsecure, Config.sslInsecure), (verbose, Config.verbose),
    (interactive, Config.interactive)]

/-- The configuration `c'` is `c` with the settings in force: what they set, it holds, and for the
rest it is as it was. -/
structure Forces (s : Settings) (c c' : Config) : Prop where
  switches : ∀ f ∈ switches, f.2 c' = true ↔ f.1 s = some true ∨ f.2 c = true
  /-- A timeout counts if it is a finite number of seconds and positive. -/
  timeout : ∀ x, s.timeout = some (.finite x) → x.negative = false → x.isZero = false →
    Duration.ofSeconds? x = some c'.timeout
  timeout_kept : (∀ x, s.timeout = some (.finite x) → x.negative = true ∨ x.isZero = true) →
    c'.timeout = c.timeout
  retries : ∀ n, s.retries = some n → c'.retries = n
  retries_kept : s.retries = none → c'.retries = c.retries
  skipTermColors : c'.skipTermColors = s.skipTermColors.getD c.skipTermColors
  variableBinds : c'.variableBinds = c.variableBinds
  generators : c'.generators = c.generators
  testParallel : c'.testParallel = c.testParallel

variable {s : Settings} {timeout : Option Duration}

/-- What counts as a timeout is found out once for all configurations. -/
theorem forcedTimeout_spec (h : s.forcedTimeout = .ok timeout) :
    (∀ x, s.timeout = some (.finite x) → x.negative = false → x.isZero = false →
        ∃ d, timeout = some d ∧ Duration.ofSeconds? x = some d) ∧
      ((∀ x, s.timeout = some (.finite x) → x.negative = true ∨ x.isZero = true) →
        timeout = none) := by
  unfold forcedTimeout at h
  split at h
  · rename_i x hx
    rw [hx]
    split at h
    · rename_i hnot
      cases h
      refine ⟨fun y hy hpositive hnonzero => ?_, fun _ => rfl⟩
      cases hy
      rw [hpositive, hnonzero] at hnot
      simp at hnot
    · rename_i hpositive
      obtain ⟨d, hd, rfl⟩ := Except.eq_ok_of_map h
      refine ⟨fun y hy _ _ => ?_, fun hall => absurd (hall x rfl) hpositive⟩
      cases hy
      exact ⟨d, rfl, Duration.ofSeconds_eq_ok_iff.mp hd⟩
  · rename_i hother
    cases h
    exact ⟨fun x hx => absurd hx (hother x), fun _ => rfl⟩

/-- A timeout is at fault only if it is too long. -/
theorem exists_forcedTimeout (h : ∀ x, s.timeout = some (.finite x) → x.negative = false →
    x.isZero = false → (Duration.ofSeconds? x).isSome) :
    ∃ timeout, s.forcedTimeout = .ok timeout := by
  unfold forcedTimeout
  split
  · rename_i x hx
    split
    · exact ⟨none, rfl⟩
    · rename_i hpositive
      rw [not_or, Bool.not_eq_true, Bool.not_eq_true] at hpositive
      obtain ⟨d, hd⟩ := Option.isSome_iff_exists.mp (h x hx hpositive.1 hpositive.2)
      rw [Duration.ofSeconds_eq_ok_iff.mpr hd]
      exact ⟨some d, rfl⟩
  · exact ⟨none, rfl⟩

theorem forces_force (h : s.forcedTimeout = .ok timeout) (c : Config) :
    s.Forces c (s.force timeout c) where
  switches := by
    simp [Settings.switches, force, or_comm]
  timeout := fun x hx hpositive hnonzero => by
    obtain ⟨d, rfl, hd⟩ := (forcedTimeout_spec h).1 x hx hpositive hnonzero
    exact hd
  timeout_kept := fun hall => by
    rw [force, (forcedTimeout_spec h).2 hall]
    rfl
  retries := fun n hn => by
    rw [force, hn]
    rfl
  retries_kept := fun hn => by
    rw [force, hn]
    rfl
  skipTermColors := rfl
  variableBinds := rfl
  generators := rfl
  testParallel := rfl

/-- Settings that are in force already change nothing. -/
theorem force_force (s : Settings) (timeout : Option Duration) (c : Config) :
    s.force timeout (s.force timeout c) = s.force timeout c := by
  simp only [force, Bool.or_assoc, Bool.or_self]
  cases timeout <;> cases s.retries <;> cases s.skipTermColors <;> rfl

/-! ## Sets -/

/-- A step with the settings in force: only the configuration of a test is another one. -/
inductive ForcesStep (s : Settings) : Step → Step → Prop where
  | test {t : Test} {c c' : Config} (h : s.Forces c c') : ForcesStep s (.test t c) (.test t c')
  | operation (op : Operation) : ForcesStep s (.operation op) (.operation op)
  | configure (change : Config.Change) : ForcesStep s (.configure change) (.configure change)

/-- A set with the settings in force: the same steps in the same order. -/
structure ForcesSet (s : Settings) (set set' : TestSet) : Prop where
  steps : List.Forall₂ s.ForcesStep set.steps set'.steps
  config : s.Forces set.config set'.config
  source : set'.source = set.source

/-- **Putting settings into a configuration**: they are in force, and a second time changes
nothing. -/
theorem applyTo_spec {c c' : Config} (h : s.applyTo c = .ok c') :
    s.Forces c c' ∧ s.applyTo c' = .ok c' := by
  obtain ⟨timeout, htimeout, hforced⟩ := Except.eq_ok_of_bind h
  cases hforced
  refine ⟨forces_force htimeout c, ?_⟩
  rw [applyTo, htimeout]
  exact congrArg Except.ok (s.force_force timeout c)

theorem exists_applyTo (h : s.forcedTimeout = .ok timeout) (c : Config) :
    ∃ c', s.applyTo c = .ok c' := by
  rw [applyTo, h]
  exact ⟨_, rfl⟩

theorem updateConfig_spec {step step' : Step} (h : step.updateConfig s.applyTo = .ok step') :
    s.ForcesStep step step' ∧ step'.updateConfig s.applyTo = .ok step' := by
  cases step with
  | test t c =>
    obtain ⟨c', hc, rfl⟩ := Except.eq_ok_of_map h
    obtain ⟨hforces, hagain⟩ := applyTo_spec hc
    refine ⟨.test hforces, ?_⟩
    rw [Step.updateConfig, hagain]
    rfl
  | operation op =>
    cases h
    exact ⟨.operation op, rfl⟩
  | configure change =>
    cases h
    exact ⟨.configure change, rfl⟩

theorem updateConfigs_spec {set set' : TestSet} (h : set.updateConfigs s.applyTo = .ok set') :
    s.ForcesSet set set' ∧ set'.updateConfigs s.applyTo = .ok set' := by
  obtain ⟨config, hconfig, h⟩ := Except.eq_ok_of_bind h
  obtain ⟨steps, hsteps, h⟩ := Except.eq_ok_of_bind h
  cases h
  obtain ⟨hforces, hagain⟩ := applyTo_spec hconfig
  have hspec := (mapM_eq_ok_iff.mp hsteps).imp fun _ _ hstep => updateConfig_spec hstep
  have hstepsAgain : steps.mapM (Step.updateConfig s.applyTo) = .ok steps :=
    mapM_eq_ok_iff.mpr (List.forall₂_same.mpr fun step hstep =>
      (exists_left_of_forall₂ hspec hstep).elim fun _ hleft => hleft.2.2)
  refine ⟨⟨hspec.imp fun _ _ hstep => hstep.1, hforces, rfl⟩, ?_⟩
  rw [TestSet.updateConfigs, hagain, hstepsAgain]
  rfl

/-- **Putting settings into sets**: each set has them in force, and a second time changes
nothing. -/
theorem applyToSets_spec {documents sets : List TestSet}
    (h : s.applyToSets documents = .ok sets) :
    List.Forall₂ s.ForcesSet documents sets ∧ s.applyToSets sets = .ok sets := by
  have hspec := (mapM_eq_ok_iff.mp h).imp fun _ _ hset => updateConfigs_spec hset
  refine ⟨hspec.imp fun _ _ hset => hset.1, mapM_eq_ok_iff.mpr ?_⟩
  exact List.forall₂_same.mpr fun set hset =>
    (exists_left_of_forall₂ hspec hset).elim fun _ hleft => hleft.2.2

theorem exists_updateConfigs (h : s.forcedTimeout = .ok timeout) (set : TestSet) :
    ∃ set', set.updateConfigs s.applyTo = .ok set' := by
  obtain ⟨config, hconfig⟩ := exists_applyTo h set.config
  obtain ⟨steps, hsteps⟩ : ∃ steps, set.steps.mapM (Step.updateConfig s.applyTo) = .ok steps := by
    refine exists_mapM fun step _ => ?_
    cases step with
    | test t c =>
      obtain ⟨c', hc⟩ := exists_applyTo h c
      rw [Step.updateConfig, hc]
      exact ⟨_, rfl⟩
    | operation op => exact ⟨_, rfl⟩
    | configure change => exact ⟨_, rfl⟩
  rw [TestSet.updateConfigs, hconfig, hsteps]
  exact ⟨_, rfl⟩

theorem exists_applyToSets (h : s.forcedTimeout = .ok timeout) (documents : List TestSet) :
    ∃ sets, s.applyToSets documents = .ok sets :=
  exists_mapM fun set _ => exists_updateConfigs h set

/-! ## Runs -/

/-- A configuration that a test of the documents has with the settings in force. -/
def InForce (s : Settings) (documents : List TestSet) (t : Test) (c' : Config) : Prop :=
  ∃ document ∈ documents, ∃ c, .test t c ∈ document.steps ∧ s.Forces c c'

/-- Whatever a set with the settings in force does, its tests have them in force. -/
theorem inForce_of_did {documents : List TestSet} {document set : TestSet}
    (hdocument : document ∈ documents) (hforces : s.ForcesSet document set)
    {policy : RetryPolicy} {acts : List Act} {o : Option Outcome} {deeds : List Deed}
    (hdid : set.Did policy acts o deeds) :
    ∀ d ∈ deeds, ∀ t c, d.step = .test t c → s.InForce documents t c := by
  intro d hd t c hstep
  have hmem : .test t c ∈ set.steps := hdid.account.first.subset (hstep ▸ List.mem_map_of_mem hd)
  obtain ⟨step, hold, hnew⟩ := exists_left_of_forall₂ hforces.steps hmem
  cases hnew with
  | @test _ c₀ _ h => exact ⟨document, hdocument, c₀, hold, h⟩

/-- **Settings are in force in every run.**  Where the documents of a suite compile, its sets are
those of the documents with the settings in force, unless the timeout is too long, and to put the
settings there once more changes nothing.  In a run of the sets, in order or side by side and
against any transport, every test that is carried out is sent and judged under a configuration in
force, and every request goes out under the options of one.  Where the run breaks off this is so up
to then, and there is no report. -/
theorem compileSuite_forces {r : Registry} {tree : FileTree} {path : String}
    {documents : List TestSet} {compiler : Compiler}
    (h : ({ registry := r, bindings := s.initialVariables } : Compiler).compileFile tree path =
      (.ok documents, compiler)) :
    ((∀ x, s.timeout = some (.finite x) → x.negative = false → x.isZero = false →
        (Duration.ofSeconds? x).isSome) → ∃ sets, s.compileSuite r tree path = .ok sets) ∧
    ∀ sets, s.compileSuite r tree path = .ok sets →
      List.Forall₂ s.ForcesSet documents sets ∧
      s.applyToSets sets = .ok sets ∧
      ∀ {σ : Type} (o : RunOptions) (transport : Transport σ) (env : Environment) (w : World σ),
        ∃ runs : List (List Act × Option Outcome),
          (o.run transport env sets w).1.toOption =
            (runs.mapM Prod.snd).map Report.ofOutcomes ∧
          List.Forall₂ (fun set run => (set.run o.retry env).MayHaveDone run.1 run.2 ∧
            ∃ deeds, set.Did o.retry run.1 run.2 deeds ∧
              ∀ d ∈ deeds, ∀ t c, d.step = .test t c → s.InForce documents t c) sets runs ∧
          w.Gains (o.run transport env sets w).2 fun e =>
            ∃ t c, s.InForce documents t c ∧ e.2.1 = ⟨c.timeout, c.sslInsecure, c.verbose⟩ := by
  have hsuite : s.compileSuite r tree path = (s.applyToSets documents).mapError .compile := by
    rw [compileSuite, h]
    rfl
  rw [hsuite]
  refine ⟨fun hfits => ?_, fun sets happlied => ?_⟩
  · obtain ⟨timeout, htimeout⟩ := exists_forcedTimeout hfits
    obtain ⟨sets, hsets⟩ := exists_applyToSets htimeout documents
    rw [hsets]
    exact ⟨sets, rfl⟩
  obtain ⟨hforces, hagain⟩ := applyToSets_spec (Except.eq_ok_of_mapError happlied)
  refine ⟨hforces, hagain, ?_⟩
  intro σ o transport env w
  obtain ⟨runs, hruns, hreport, hgains⟩ := o.exists_runs transport env sets w
  have hdid : List.Forall₂ (fun set run => (set.run o.retry env).MayHaveDone run.1 run.2 ∧
      ∃ deeds, set.Did o.retry run.1 run.2 deeds ∧
        ∀ d ∈ deeds, ∀ t c, d.step = .test t c → s.InForce documents t c) sets runs := by
    have hsets := fun set hset => exists_left_of_forall₂ hforces (y := set) hset
    refine ((List.forall₂_and_left sets runs).mpr ⟨hsets, hruns⟩).imp fun set run hrun => ?_
    obtain ⟨⟨document, hdocument, hforced⟩, hdone⟩ := hrun
    obtain ⟨deeds, hdeeds⟩ := TestSet.exists_deeds hdone
    exact ⟨hdone, deeds, hdeeds, inForce_of_did hdocument hforced hdeeds⟩
  refine ⟨runs, hreport, hdid, hgains.mono fun e he => ?_⟩
  obtain ⟨run, hrun, x, reply, hx, he⟩ := he
  obtain ⟨set, -, -, deeds, hdeeds, hall⟩ := exists_left_of_forall₂ hdid hrun
  have hexchange : (x, reply) ∈ run.1.filterMap Act.exchange? :=
    List.mem_filterMap.mpr ⟨_, hx, rfl⟩
  rw [hdeeds.account.exchanges_eq] at hexchange
  obtain ⟨d, hd, hdx⟩ := List.mem_filterMap.mp hexchange
  obtain ⟨t, c, request, hstep, rfl⟩ := Deed.exists_of_exchange? hdx
  exact ⟨t, c, hall d hd t c hstep, he.2⟩

/-- Settings that disagree with most documents. -/
def insistent : Settings :=
  { printBodies := some true, retries := some 5, timeout := some (.finite (Binary64.ofInt 2)) }

/-- Two files that ask for retries of their own get those of the settings. -/
theorem compileSuite_forces_insistent :
    ∃ sets, insistent.compileSuite .builtins CompileM.configuring "/r/b.json" = .ok sets ∧
      sets.map (fun set => set.tests.map fun t =>
        (t.2.retries, t.2.timeout.milliseconds, t.2.printBodies, t.2.verbose)) =
          [[(5, 2000, true, false)], [(5, 2000, true, false)]] ∧
      insistent.applyToSets sets = .ok sets := by
  have htests : (insistent.compileSuite .builtins CompileM.configuring "/r/b.json").toOption.map
      (fun sets => sets.map fun set => set.tests.map fun t =>
        (t.2.retries, t.2.timeout.milliseconds, t.2.printBodies, t.2.verbose)) =
          some [[(5, 2000, true, false)], [(5, 2000, true, false)]] := by
    decide +kernel
  rcases hcompiled : ({ registry := .builtins, bindings := insistent.initialVariables } :
    Compiler).compileFile CompileM.configuring "/r/b.json" with ⟨e | documents, compiler⟩
  · rw [compileSuite, hcompiled] at htests
    cases htests
  obtain ⟨hreturns, hforces⟩ := compileSuite_forces hcompiled
  obtain ⟨sets, hsets⟩ := hreturns fun x hx _ _ => by
    cases hx
    decide +kernel
  rw [hsets] at htests
  exact ⟨sets, hsets, Option.some.inj htests, (hforces sets hsets).2.1⟩

end Settings

end HttpSuite
