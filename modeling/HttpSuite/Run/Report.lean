import HttpSuite.Run.Runner

/-!
# Reports

The results of a run by group, and what is printed about them.
-/

namespace HttpSuite

structure GroupSummary where
  passed : Nat
  total : Nat

def GroupSummary.failed (s : GroupSummary) : Nat := s.total - s.passed

structure Report where
  /-- The groups in the order of their names. -/
  groups : List (String × GroupSummary)
  outcomes : List Outcome
  totalFailures : Nat

namespace Report

/-- Counts a result in its group, keeping groups in the order of their names. -/
def count (result : TestResult) : List (String × GroupSummary) → List (String × GroupSummary)
  | [] => [(result.group, ⟨if result.passed then 1 else 0, 1⟩)]
  | (name, s) :: rest =>
    let passed := if result.passed then 1 else 0
    if result.group < name then (result.group, ⟨passed, 1⟩) :: (name, s) :: rest
    else if result.group = name then (name, ⟨s.passed + passed, s.total + 1⟩) :: rest
    else (name, s) :: count result rest

def ofOutcomes (outcomes : List Outcome) : Report :=
  let groups := (outcomes.flatMap (·.results)).foldl (fun acc r => count r acc) []
  ⟨groups, outcomes, groups.foldl (fun n g => n + g.2.failed) 0⟩

/-- The number of failures as an exit code. -/
def exitCode (r : Report) : Nat := min r.totalFailures 255

/-- The text in a color, which goes on after the colors inside it end. -/
private def colored (code text : String) : String :=
  let start := "\u001b[" ++ code ++ "m"
  let stop := "\u001b[0m"
  start ++ text.replace stop (stop ++ start) ++ stop

/-- One line for each group. -/
def summaryLines (r : Report) (colors : Bool) : List String :=
  r.groups.map fun (name, s) =>
    let good := s.failed == 0
    let verdict := if good then "SUCCEEDED:" else "FAILED:"
    let line := "Test Group " ++ name ++ " " ++ verdict ++ " " ++ toString s.passed ++ "/" ++
      toString s.total ++ " Tests Passed!"
    if !colors then line else colored (if good then "32" else "31") line

end Report

/-- How test sets are run. -/
structure RunOptions where
  concurrent : Bool := false
  /-- Whether colors are left out, whatever the sets say. -/
  skipTermColors : Option Bool := none
  printSummary : Bool := true
  /-- Whether the terminal shows colors. -/
  terminal : Bool := false
  retry : RetryPolicy := {}

namespace RunOptions

/-- Runs sets one after another. -/
def runInOrder {σ : Type} (t : Transport σ) (o : RunOptions) (env : Environment) :
    List TestSet → World σ → Ran σ (List Outcome)
  | [], w => (.ok [], w)
  | s :: rest, w =>
    ((s.run o.retry env).run t w).andThen fun outcome w =>
      (runInOrder t o env rest w).andThen fun outcomes w => (.ok (outcome :: outcomes), w)

/-- The outcomes of sets, one after another or side by side. -/
def outcomes {σ : Type} (o : RunOptions) (t : Transport σ) (env : Environment)
    (sets : List TestSet) (w : World σ) : Ran σ (List Outcome) :=
  if o.concurrent then
    Program.together t (sets.foldl (fun n s => n + s.turns) 0) (sets.map (TestSet.run o.retry env))
      w
  else runInOrder t o env sets w

/-- The world in which the sets run: what runs, and how, has been noted. -/
def begin {σ : Type} (t : Transport σ) (sets : List TestSet) (w : World σ) : World σ :=
  w.note (.log .info
    ("Running " ++ toString sets.length ++ " test sets via " ++ t.name ++ " transport"))

/-- The summary that is printed. -/
def summary (o : RunOptions) (sets : List TestSet) (report : Report) : List String :=
  let skip := o.skipTermColors.getD (report.outcomes.any (·.skipTermColors))
  if o.printSummary then
    (if sets.any TestSet.isInteractive then [separator] else []) ++
      report.summaryLines (!skip && o.terminal)
  else []

/-- Runs sets, prints the summary and gives the report. -/
def run {σ : Type} (o : RunOptions) (t : Transport σ) (env : Environment) (sets : List TestSet)
    (w : World σ) : Ran σ Report :=
  (o.outcomes t env sets (begin t sets w)).andThen fun outcomes w =>
    let report := Report.ofOutcomes outcomes
    (.ok report, (o.summary sets report).foldl (fun w line => w.note (.line line)) w)

end RunOptions

end HttpSuite
