import HttpSuite.Proofs.Run.Deeds
import HttpSuite.Proofs.Run.Performances
import HttpSuite.Proofs.Run.Steps
import Mathlib.Data.List.Sort
import Mathlib.Data.String.Basic

/-!
# Counting results

A report counts the results of a run by group, and its failures are those of the groups together.
The exit code is made of them, so a run that went wrong must not be counted as one that did not.

Two things come together.  Counting is right for any results: the groups stand in the order of their
names, each with the results that belong to it (`Report.Counts`), so it is a matter of the results
alone, in whatever order they come (`Report.Counts.eq_of_perm`).  And the results of a set say what
went wrong: a result is passed exactly if it has no failures, and a set that ends early and an
operation that fails have a result that is not passed (`TestSet.Did`).

`Report.isFaithful_ofOutcomes` puts them together for the runs of any sets.
-/

namespace HttpSuite

/-! ## What results say -/

/-- A result is passed exactly if it has no failures. -/
def TestResult.IsSound (r : TestResult) : Prop := r.passed = r.failures.isEmpty

theorem Test.isSound_judge (t : Test) (config : Config) (request : Request) (reply : Reply)
    (context : Context) : (t.judge config request reply context).result.IsSound := by
  cases reply <;> rfl

theorem Deed.isSound_of_result? {d : Deed} {r : TestResult} (h : d.result? = some r) :
    r.IsSound := by
  cases d with
  | refused t config f =>
    cases h
    rfl
  | prepared t config request => cases h
  | judged t config request reply context =>
    cases h
    exact t.isSound_judge config request reply context
  | operated op outcome =>
    cases outcome with
    | ok u => cases h
    | error e =>
      cases h
      rfl
  | configured change => cases h

namespace TestSet.Did

variable {policy : RetryPolicy} {s : TestSet} {acts : List Act} {o : Outcome} {deeds : List Deed}

theorem isSound (h : s.Did policy acts (some o) deeds) : ∀ r ∈ o.results, r.IsSound := by
  intro r hr
  rw [(h.ends o rfl).results_eq] at hr
  obtain ⟨d, -, hd⟩ := List.mem_filterMap.mp hr
  exact Deed.isSound_of_result? hd

/-- A set ends early by a result that is not passed. -/
theorem exists_failed_of_stoppedEarly (h : s.Did policy acts (some o) deeds)
    (hstopped : o.stoppedEarly = true) : ∃ r ∈ o.results, r.passed = false := by
  have hends := h.ends o rfl
  rw [hends.stopped_eq] at hstopped
  obtain ⟨d, hd, hstops⟩ := List.any_eq_true.mp hstopped
  rw [Deed.stops] at hstops
  split at hstops
  · rename_i r _ hr
    rw [Bool.and_eq_true, Bool.not_eq_true'] at hstops
    refine ⟨r, ?_, hstops.1⟩
    rw [hends.results_eq]
    exact List.mem_filterMap.mpr ⟨d, hd, hr⟩
  · cases hstops

/-- An operation that fails has a result. -/
theorem failure_mem_results (h : s.Did policy acts (some o) deeds) {op : Operation}
    {e : OperationError} (hop : .operated op (.error e) ∈ deeds) : op.failure e ∈ o.results := by
  rw [(h.ends o rfl).results_eq]
  exact List.mem_filterMap.mpr ⟨_, hop, rfl⟩

end TestSet.Did

/-! ## Groups -/

namespace GroupSummary

/-- The summary with one more result. -/
def add (s : GroupSummary) (r : TestResult) : GroupSummary :=
  ⟨s.passed + if r.passed then 1 else 0, s.total + 1⟩

/-- The summary of one result. -/
def single (r : TestResult) : GroupSummary := ⟨if r.passed then 1 else 0, 1⟩

/-- The summary of those among some results that belong to a group. -/
def ofGroup (results : List TestResult) (name : String) : GroupSummary where
  passed := results.countP fun r => r.group == name && r.passed
  total := results.countP fun r => r.group == name

theorem passed_le_total_ofGroup (results : List TestResult) (name : String) :
    (ofGroup results name).passed ≤ (ofGroup results name).total :=
  List.countP_mono_left fun _ _ h => (Bool.and_eq_true_iff.mp h).1

theorem ofGroup_concat_self (results : List TestResult) (r : TestResult) :
    ofGroup (results ++ [r]) r.group = (ofGroup results r.group).add r := by
  simp [ofGroup, add, List.countP_append, List.countP_singleton]

theorem ofGroup_concat_of_ne (results : List TestResult) {r : TestResult} {name : String}
    (h : r.group ≠ name) : ofGroup (results ++ [r]) name = ofGroup results name := by
  simp [ofGroup, List.countP_append, h]

/-- A group without results. -/
theorem add_ofGroup_of_notMem {results : List TestResult} {r : TestResult}
    (h : ∀ q ∈ results, q.group ≠ r.group) : (ofGroup results r.group).add r = single r := by
  have hnone (p : TestResult → Bool) (hp : ∀ q, p q = true → q.group = r.group) :
      results.countP p = 0 := List.countP_eq_zero.mpr fun q hq hpq => h q hq (hp q hpq)
  rw [ofGroup, add, single, hnone _ fun q hq => beq_iff_eq.mp (Bool.and_eq_true_iff.mp hq).1,
    hnone _ fun q hq => beq_iff_eq.mp hq, Nat.zero_add, Nat.zero_add]

theorem ofGroup_eq_of_perm {results results' : List TestResult} (h : results.Perm results')
    (name : String) : ofGroup results name = ofGroup results' name := by
  rw [ofGroup, ofGroup, h.countP_eq, h.countP_eq]

/-- One more result is one more failure unless it is passed. -/
theorem failed_add {s : GroupSummary} (h : s.passed ≤ s.total) (r : TestResult) :
    (s.add r).failed = s.failed + (single r).failed := by
  unfold failed add single
  dsimp only
  split <;> omega

end GroupSummary

namespace Report

open GroupSummary (ofGroup single)

/-- Groups count some results: they stand in the order of their names, one for each name that a
result has, and each with the results of that name.  So every result is counted, once. -/
structure Counts (results : List TestResult) (groups : List (String × GroupSummary)) : Prop where
  sorted : (groups.map Prod.fst).Pairwise (· < ·)
  names : ∀ name, name ∈ groups.map Prod.fst ↔ ∃ r ∈ results, r.group = name
  summaries : ∀ g ∈ groups, g.2 = ofGroup results g.1
  totals : (groups.map fun g => g.2.total).sum = results.length
  failures : (groups.map fun g => g.2.failed).sum = results.countP fun r => !r.passed

variable {r : TestResult} {groups : List (String × GroupSummary)}

theorem count_cons (r : TestResult) (name : String) (s : GroupSummary)
    (rest : List (String × GroupSummary)) :
    count r ((name, s) :: rest) =
      if r.group < name then (r.group, single r) :: (name, s) :: rest
      else if r.group = name then (name, s.add r) :: rest
      else (name, s) :: count r rest := rfl

theorem mem_names_count {name : String} :
    name ∈ (count r groups).map Prod.fst ↔ name = r.group ∨ name ∈ groups.map Prod.fst := by
  induction groups with
  | nil => rw [count, List.map_singleton, List.mem_singleton, List.map_nil, List.mem_nil_iff,
      or_false]
  | cons g rest ih =>
    obtain ⟨n, s⟩ := g
    rw [count_cons]
    split
    · exact List.mem_cons
    · split
      · rename_i heq
        rw [List.map_cons, List.map_cons, heq, List.mem_cons]
        exact (or_self_left ..).symm
      · rw [List.map_cons, List.map_cons, List.mem_cons, List.mem_cons, ih]
        exact or_left_comm

theorem sorted_count (h : (groups.map Prod.fst).Pairwise (· < ·)) :
    ((count r groups).map Prod.fst).Pairwise (· < ·) := by
  induction groups with
  | nil => exact List.pairwise_singleton _ _
  | cons g rest ih =>
    obtain ⟨n, s⟩ := g
    obtain ⟨hfirst, hrest⟩ := List.pairwise_cons.mp h
    rw [count_cons]
    split
    · rename_i hlt
      exact List.pairwise_cons.mpr ⟨List.forall_mem_cons.mpr
        ⟨hlt, fun m hm => lt_trans hlt (hfirst m hm)⟩, h⟩
    · rename_i hge
      split
      · exact h
      · rename_i hne
        refine List.pairwise_cons.mpr ⟨fun m hm => ?_, ih hrest⟩
        rcases mem_names_count.mp hm with rfl | hm
        · exact lt_of_le_of_ne (not_lt.mp hge) (Ne.symm hne)
        · exact hfirst m hm

/-- The groups after one more result: only its own group is another one. -/
theorem mem_count (h : (groups.map Prod.fst).Pairwise (· < ·)) {g : String × GroupSummary}
    (hg : g ∈ count r groups) :
    (g ∈ groups ∧ r.group ≠ g.1) ∨
      (∃ s, (r.group, s) ∈ groups ∧ g = (r.group, s.add r)) ∨
      (r.group ∉ groups.map Prod.fst ∧ g = (r.group, single r)) := by
  induction groups with
  | nil => exact .inr (.inr ⟨List.not_mem_nil, List.mem_singleton.mp hg⟩)
  | cons first rest ih =>
    obtain ⟨n, s⟩ := first
    obtain ⟨hfirst, hrest⟩ := List.pairwise_cons.mp h
    rw [count_cons] at hg
    split at hg
    · rename_i hlt
      have hnew : ∀ m ∈ ((n, s) :: rest).map Prod.fst, r.group ≠ m :=
        List.forall_mem_cons.mpr ⟨ne_of_lt hlt, fun m hm => ne_of_lt (lt_trans hlt (hfirst m hm))⟩
      rcases List.mem_cons.mp hg with rfl | hg
      · exact .inr (.inr ⟨fun hmem => hnew _ hmem rfl, rfl⟩)
      · exact .inl ⟨hg, hnew _ (List.mem_map_of_mem hg)⟩
    · split at hg
      · rename_i heq
        subst heq
        rcases List.mem_cons.mp hg with rfl | hg
        · exact .inr (.inl ⟨s, List.mem_cons_self .., rfl⟩)
        · exact .inl ⟨List.mem_cons_of_mem _ hg, ne_of_lt (hfirst _ (List.mem_map_of_mem hg))⟩
      · rename_i hne
        rcases List.mem_cons.mp hg with rfl | hg
        · exact .inl ⟨List.mem_cons_self .., hne⟩
        · rcases ih hrest hg with ⟨hmem, hother⟩ | ⟨s', hmem, rfl⟩ | ⟨hnew, rfl⟩
          · exact .inl ⟨List.mem_cons_of_mem _ hmem, hother⟩
          · exact .inr (.inl ⟨s', List.mem_cons_of_mem _ hmem, rfl⟩)
          · refine .inr (.inr ⟨fun hmem => ?_, rfl⟩)
            rcases List.mem_cons.mp hmem with heq | hmem
            · exact hne heq
            · exact hnew hmem

/-- A number that adds up over the results of a group adds up over all of them. -/
theorem sum_count {f : GroupSummary → Nat}
    (hf : ∀ g ∈ groups, f (g.2.add r) = f g.2 + f (single r)) :
    ((count r groups).map fun g => f g.2).sum =
      (groups.map fun g => f g.2).sum + f (single r) := by
  induction groups with
  | nil => exact Nat.add_comm ..
  | cons g rest ih =>
    obtain ⟨n, s⟩ := g
    obtain ⟨hs, hrest⟩ := List.forall_mem_cons.mp hf
    rw [count_cons]
    split
    · exact Nat.add_comm ..
    · split
      · rw [List.map_cons, List.map_cons, List.sum_cons, List.sum_cons, hs]
        exact Nat.add_right_comm ..
      · rw [List.map_cons, List.map_cons, List.sum_cons, List.sum_cons, ih hrest, Nat.add_assoc]

namespace Counts

variable {results results' : List TestResult} {groups' : List (String × GroupSummary)}

theorem nil : Counts [] [] where
  sorted := .nil
  names := fun name => by simp
  summaries := fun g hg => nomatch hg
  totals := rfl
  failures := rfl

theorem passed_le_total (h : Counts results groups) :
    ∀ g ∈ groups, g.2.passed ≤ g.2.total := by
  intro g hg
  rw [h.summaries g hg]
  exact GroupSummary.passed_le_total_ofGroup results g.1

/-- **One more result.** -/
theorem count (h : Counts results groups) (r : TestResult) :
    Counts (results ++ [r]) (Report.count r groups) where
  sorted := sorted_count h.sorted
  names := by
    intro name
    rw [mem_names_count, h.names]
    simp [or_and_right, exists_or, or_comm, eq_comm]
  summaries := by
    intro g hg
    rcases mem_count h.sorted hg with ⟨hmem, hother⟩ | ⟨s, hmem, rfl⟩ | ⟨hnew, rfl⟩
    · rw [h.summaries g hmem, GroupSummary.ofGroup_concat_of_ne results hother]
    · have hs : s = ofGroup results r.group := h.summaries _ hmem
      rw [GroupSummary.ofGroup_concat_self, ← hs]
    · rw [GroupSummary.ofGroup_concat_self]
      refine (GroupSummary.add_ofGroup_of_notMem fun q hq heq => hnew ?_).symm
      exact (h.names r.group).mpr ⟨q, hq, heq⟩
  totals := by
    rw [sum_count fun g _ => rfl, h.totals, List.length_append]
    rfl
  failures := by
    rw [sum_count fun g hg => GroupSummary.failed_add (h.passed_le_total g hg) r, h.failures,
      List.countP_append, List.countP_singleton, GroupSummary.failed, single]
    cases r.passed <;> rfl

theorem foldl (h : Counts results groups) (later : List TestResult) :
    Counts (results ++ later) (later.foldl (fun acc r => Report.count r acc) groups) := by
  induction later generalizing results groups with
  | nil =>
    rw [List.append_nil]
    exact h
  | cons r later ih =>
    have hlater := ih (h.count r)
    rwa [List.append_assoc] at hlater

theorem eq_map (h : Counts results groups) :
    groups = (groups.map Prod.fst).map fun name => (name, ofGroup results name) := by
  rw [List.map_map]
  nth_rewrite 1 [← List.map_id groups]
  exact List.map_congr_left fun g hg => Prod.ext rfl (h.summaries g hg)

/-- **The order of the results does not matter** to the groups that count them. -/
theorem eq_of_perm (h : Counts results groups) (h' : Counts results' groups')
    (hperm : results.Perm results') : groups = groups' := by
  have hnames : groups.map Prod.fst = groups'.map Prod.fst :=
    h.sorted.eq_of_mem_iff h'.sorted fun name => by
      rw [h.names, h'.names]
      simp only [hperm.mem_iff]
  rw [h.eq_map, h'.eq_map, hnames]
  exact List.map_congr_left fun name _ =>
    congrArg (name, ·) (GroupSummary.ofGroup_eq_of_perm hperm name)

end Counts

theorem counts_ofOutcomes (outcomes : List Outcome) :
    Counts (outcomes.flatMap Outcome.results) (ofOutcomes outcomes).groups := by
  have h := Counts.nil.foldl (outcomes.flatMap Outcome.results)
  rwa [List.nil_append] at h

/-- The failures of a report are the results that are not passed. -/
theorem totalFailures_ofOutcomes (outcomes : List Outcome) :
    (ofOutcomes outcomes).totalFailures =
      (outcomes.flatMap Outcome.results).countP fun r => !r.passed := by
  rw [← (counts_ofOutcomes outcomes).failures, List.sum_eq_foldl, List.foldl_map]
  rfl

end Report

/-! ## Runs of sets -/

/-- What a set did in a run to its end, alone or among others, and what it came to. -/
structure SetRun where
  set : TestSet
  policy : RetryPolicy
  environment : Environment
  acts : List Act
  outcome : Outcome
  does : (set.run policy environment).Does acts (some outcome)

/-- The runs of sets under one policy, in one environment, where each comes to an outcome. -/
theorem exists_setRuns {policy : RetryPolicy} {env : Environment} {sets : List TestSet}
    {runs : List (List Act × Option Outcome)} {outcomes : List Outcome}
    (h : List.Forall₂ (fun s r => (s.run policy env).MayHaveDone r.1 r.2) sets runs)
    (houtcomes : List.Forall₂ (fun r o => Prod.snd r = some o) runs outcomes) :
    ∃ rs : List SetRun, rs.map SetRun.set = sets ∧
      (∀ run ∈ rs, run.policy = policy ∧ run.environment = env) ∧
      rs.map SetRun.outcome = outcomes := by
  induction h generalizing outcomes with
  | nil =>
    cases houtcomes
    exact ⟨[], rfl, fun _ hrun => (nomatch hrun), rfl⟩
  | @cons s r _ _ hr _ ih =>
    cases houtcomes with
    | @cons _ o _ _ ho hrest =>
      obtain ⟨rs, hsets, hunder, houtcomes⟩ := ih hrest
      rw [ho] at hr
      refine ⟨⟨s, policy, env, r.1, o, hr.resolve_right fun hnone => nomatch hnone.2⟩ :: rs,
        congrArg (s :: ·) hsets, List.forall_mem_cons.mpr ⟨⟨rfl, rfl⟩, hunder⟩,
        congrArg (o :: ·) houtcomes⟩

namespace Report

/-- What a report says of the runs that it is about. -/
structure IsFaithful (runs : List SetRun) (report : Report) : Prop where
  outcomes : report.outcomes = runs.map SetRun.outcome
  /-- Every result is counted in its own group. -/
  counts : Counts (report.outcomes.flatMap Outcome.results) report.groups
  passed_le_total : ∀ g ∈ report.groups, g.2.passed ≤ g.2.total
  /-- The failures are the results with failures. -/
  failures : report.totalFailures =
    (report.outcomes.flatMap Outcome.results).countP fun r => !r.failures.isEmpty
  /-- They are the failures of the outcomes together. -/
  sum_failures : report.totalFailures = (report.outcomes.map Outcome.failures).sum
  /-- The order of the outcomes makes no difference. -/
  perm : ∀ outcomes', outcomes'.Perm report.outcomes →
    (ofOutcomes outcomes').groups = report.groups ∧
      (ofOutcomes outcomes').totalFailures = report.totalFailures
  exitCode_eq_zero : report.exitCode = 0 ↔
    ∀ o ∈ report.outcomes, ∀ r ∈ o.results, r.passed = true
  /-- A set that ends early shows in the exit code. -/
  stoppedEarly : ∀ run ∈ runs, run.outcome.stoppedEarly = true → report.exitCode ≠ 0
  /-- There are deeds that account for what a set did. -/
  exists_deeds : ∀ run ∈ runs, ∃ deeds, run.set.Did run.policy run.acts (some run.outcome) deeds
  /-- An operation that fails shows in the exit code. -/
  operations : ∀ run ∈ runs, ∀ deeds, run.set.Did run.policy run.acts (some run.outcome) deeds →
    ∀ op e, .operated op (.error e) ∈ deeds → report.exitCode ≠ 0

theorem exitCode_eq_zero_iff (outcomes : List Outcome) :
    (ofOutcomes outcomes).exitCode = 0 ↔ ∀ o ∈ outcomes, ∀ r ∈ o.results, r.passed = true := by
  have hmin : (ofOutcomes outcomes).exitCode = 0 ↔ (ofOutcomes outcomes).totalFailures = 0 := by
    rw [exitCode]
    omega
  rw [hmin, totalFailures_ofOutcomes, List.countP_eq_zero]
  simp only [List.mem_flatMap, Bool.not_eq_true', Bool.not_eq_false]
  exact ⟨fun h o ho r hr => h r ⟨o, ho, hr⟩, fun h r ⟨o, ho, hr⟩ => h o ho r hr⟩

theorem exitCode_ne_zero {outcomes : List Outcome} {o : Outcome} (ho : o ∈ outcomes)
    {r : TestResult} (hr : r ∈ o.results) (hfailed : r.passed = false) :
    (ofOutcomes outcomes).exitCode ≠ 0 := by
  intro hzero
  rw [(exitCode_eq_zero_iff outcomes).mp hzero o ho r hr] at hfailed
  cases hfailed

/-- **A report is faithful** to the runs of any sets, each run with what the set did; and every run
of sets that gives a report, in order or side by side and against any transport, gives the report of
such runs. -/
theorem isFaithful_ofOutcomes :
    (∀ runs : List SetRun, IsFaithful runs (ofOutcomes (runs.map SetRun.outcome))) ∧
      ∀ (σ : Type) (o : RunOptions) (t : Transport σ) (env : Environment) (sets : List TestSet)
        (w : World σ) (report : Report), (o.run t env sets w).1 = .ok report →
          ∃ runs : List SetRun, runs.map SetRun.set = sets ∧
            (∀ run ∈ runs, run.policy = o.retry ∧ run.environment = env) ∧
            report = ofOutcomes (runs.map SetRun.outcome) := by
  refine ⟨fun runs => ?_, fun σ o t env sets w report hok => ?_⟩
  · have hdid : ∀ run ∈ runs, ∃ deeds, run.set.Did run.policy run.acts (some run.outcome) deeds :=
      fun run _ => TestSet.exists_deeds (.inl run.does)
    have hmem {run : SetRun} (hrun : run ∈ runs) : run.outcome ∈ runs.map SetRun.outcome :=
      List.mem_map_of_mem hrun
    have hcounts := counts_ofOutcomes (runs.map SetRun.outcome)
    have htotal := totalFailures_ofOutcomes (runs.map SetRun.outcome)
    refine ⟨rfl, hcounts, hcounts.passed_le_total, ?_, ?_, fun outcomes' hperm => ?_,
      exitCode_eq_zero_iff _, fun run hrun hstopped => ?_, hdid,
      fun run hrun deeds hdeeds op e hop => ?_⟩
    · rw [htotal]
      refine List.countP_congr fun r hr => ?_
      obtain ⟨o, ho, hr⟩ := List.mem_flatMap.mp hr
      obtain ⟨run, hrun, rfl⟩ := List.mem_map.mp ho
      obtain ⟨deeds, hdeeds⟩ := hdid run hrun
      rw [hdeeds.isSound r hr]
    · rw [htotal, List.countP_flatMap]
      refine congrArg List.sum (List.map_congr_left fun o _ => ?_)
      exact List.countP_eq_length_filter
    · have hperm' : (outcomes'.flatMap Outcome.results).Perm
          ((runs.map SetRun.outcome).flatMap Outcome.results) :=
        hperm.flatMap_right Outcome.results
      refine ⟨(counts_ofOutcomes outcomes').eq_of_perm hcounts hperm', ?_⟩
      rw [htotal, totalFailures_ofOutcomes, hperm'.countP_eq]
    · obtain ⟨deeds, hdeeds⟩ := hdid run hrun
      obtain ⟨r, hr, hfailed⟩ := hdeeds.exists_failed_of_stoppedEarly hstopped
      exact exitCode_ne_zero (hmem hrun) hr hfailed
    · exact exitCode_ne_zero (hmem hrun) (hdeeds.failure_mem_results hop) rfl
  · obtain ⟨runs, hruns, hreport, -⟩ := o.exists_runs t env sets w
    rw [hok] at hreport
    obtain ⟨outcomes, hall, rfl⟩ := Option.map_eq_some_iff.mp hreport.symm
    obtain ⟨rs, hsets, hunder, houtcomes⟩ := exists_setRuns hruns (mapM_eq_some_iff.mp hall)
    exact ⟨rs, hsets, hunder, congrArg ofOutcomes houtcomes.symm⟩

/-- Against a transport that refuses everything, `refused` ends with three failures. -/
theorem isFaithful_ofOutcomes_refused :
    let run := ({} : RunOptions).run (.constant ⟨0, .error (.connection "refused")⟩) []
      [TestSet.refused] (World.start ())
    ∃ report runs, run.1 = .ok report ∧ runs.map SetRun.set = [TestSet.refused] ∧
      IsFaithful runs report ∧ report.exitCode = 3 := by
  intro run
  have hexit : run.1.toOption.map exitCode = some 3 := by decide +kernel
  obtain ⟨report, hreport, hcode⟩ := Option.map_eq_some_iff.mp hexit
  have hok := Except.eq_ok_of_toOption hreport
  obtain ⟨hfaithful, hgives⟩ := isFaithful_ofOutcomes
  obtain ⟨runs, hsets, -, rfl⟩ := hgives _ _ _ _ _ _ report hok
  exact ⟨_, runs, hok, hsets, hfaithful runs, hcode⟩

end Report

end HttpSuite
