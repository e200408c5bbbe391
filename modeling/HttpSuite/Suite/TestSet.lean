import HttpSuite.Suite.Config

/-!
# Test sets

The steps of one document in order.  A test goes with the configuration in effect where it was
declared.
-/

namespace HttpSuite

inductive Step where
  | test (test : Test) (config : Config)
  | operation (operation : Operation)
  /-- A configuration node after earlier steps. -/
  | configure (change : Config.Change)

/-- Changes the configuration that a step keeps, if it keeps one. -/
def Step.updateConfig {ε : Type} (f : Config → Except ε Config) : Step → Except ε Step
  | .test t config => (f config).map (.test t)
  | step => .ok step

structure TestSet where
  steps : List Step
  /-- The configuration where the first step was declared. -/
  config : Config
  /-- The file of the document, if it comes from one. -/
  source : Option String

namespace TestSet

/-- The tests with their configurations. -/
def tests (s : TestSet) : List (Test × Config) :=
  s.steps.filterMap fun step =>
    match step with
    | .test test config => some (test, config)
    | _ => none

/-- Changes the configuration of the set and of each of its tests. -/
def updateConfigs {ε : Type} (f : Config → Except ε Config) (s : TestSet) : Except ε TestSet := do
  let config ← f s.config
  let steps ← s.steps.mapM (Step.updateConfig f)
  return { s with config := config, steps := steps }

/-- The set with its tests one after another, whatever they are. -/
def sequential (s : TestSet) : TestSet :=
  { s with config := { s.config with testParallel := false } }

def name (s : TestSet) : String := s.source.getD "<inline>"

def isEmpty (s : TestSet) : Bool := s.steps.isEmpty

/-- Whether no step can affect another one, so that tests may be sent side by side. -/
def isIndependent (s : TestSet) : Bool :=
  s.steps.all fun step =>
    match step with
    | .test test config =>
      !config.interactive && !test.writesContext && !test.stopOnFailure && test.delay.isNone
    | _ => false

/-- Whether some test waits for the user before it is sent. -/
def isInteractive (s : TestSet) : Bool := s.tests.any fun t => t.2.interactive

end TestSet

end HttpSuite
