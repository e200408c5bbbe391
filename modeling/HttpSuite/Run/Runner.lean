import HttpSuite.Run.Judgement
import HttpSuite.Run.Program

/-!
# Running test sets

A set runs in a context of its own, step by step, or with all its requests side by side where that
is asked for and no step can affect another one.  A failing test may end its set, and an exchange
that breaks off ends the whole run; nothing else ends a set, and no set affects another one.
-/

namespace HttpSuite

/-- The group of operations that fail. -/
def operationsGroup : String := "Operations"

def separator : String := "==================================="

/-! ## Operations -/

/-- Why an operation fails. -/
inductive OperationError where
  | template (cause : TemplateError)

def OperationError.message : OperationError → String
  | template cause => "Template error in operation: " ++ cause.message

namespace Operation

/-- Carries out an operation; an operation that fails binds nothing. -/
def run (op : Operation) (context : Context) :
    Program (Except OperationError Unit × Context) :=
  match op with
  | print message =>
    match context.resolve message with
    | (.ok v, context) => .note (.line v.render) (.done (.ok (), context))
    | (.error e, context) => .done (.error (.template e), context)
  | delay d => .sleep d (.done (.ok (), context))
  | bind bindings =>
    match context.pass (resolveAll bindings) with
    | (.ok values, context) => .done (.ok (), context.bindAll values)
    | (.error e, context) => .done (.error (.template e), context)

/-- The result of an operation that failed. -/
def failure (op : Operation) (e : OperationError) : TestResult where
  name := op.describe
  url := ""
  group := operationsGroup
  passed := false
  code := none
  headers := []
  failures := [{
    kind := .operationFailed
    message := "Operation '" ++ op.kind.name ++ "' failed"
    details := some e.message }]

end Operation

/-! ## Tests -/

/-- The exchange of a request under a configuration. -/
def Config.exchange (config : Config) (policy : RetryPolicy) (request : Request) : Exchange where
  request := request
  options := ⟨config.timeout, config.sslInsecure, config.verbose⟩
  retries := config.retries
  policy := policy

/-- The exchange of a request, if there is one. -/
def Config.exchange? (config : Config) (policy : RetryPolicy) :
    Except Failure Request → Option Exchange
  | .ok request => some (config.exchange policy request)
  | .error _ => none

namespace Test

/-- What is shown of a request before the user lets it go. -/
def requestLines (t : Test) (request : Request) : List String :=
  [separator, t.name, "-----------------------------------", "REQUEST:",
    request.method.name ++ " " ++ request.url, "HEADERS:"] ++
  request.headers.map (fun h => h.1 ++ ": " ++ h.2) ++
  match request.body with
  | some body => ["\n" ++ body]
  | none => []

/-- Runs one test. -/
def run (policy : RetryPolicy) (t : Test) (config : Config) (context : Context) :
    Program (TestResult × Context) :=
  match t.prepare.run.run context with
  | (.error failure, context) => do
    let result := TestResult.failed t t.url failure
    Program.notes result.notes
    return (result, context)
  | (.ok request, context) => do
    if config.interactive then
      Program.notes ((t.requestLines request).map .line ++ [.pause "Press ENTER when ready"])
    let reply ← Program.perform (config.exchange policy request)
    let judgement := t.judge config request reply context
    Program.notes (judgement.lines.map .line ++ judgement.result.notes)
    return (judgement.result, judgement.context)

end Test

/-! ## Sets -/

/-- What became of a test set. -/
structure Outcome where
  name : String
  results : List TestResult
  context : Context
  stoppedEarly : Bool
  skipTermColors : Bool

def Outcome.failures (o : Outcome) : Nat := (o.results.filter fun r => !r.passed).length

/-- A set as far as it has run. -/
structure Progress where
  context : Context
  results : List TestResult
  stoppedEarly : Bool

namespace Progress

def add (p : Progress) (result : TestResult) (context : Context) : Progress :=
  { p with context := context, results := p.results ++ [result] }

end Progress

namespace TestSet

/-- What is logged where a failing test ends its set. -/
def stopNote : Note :=
  .log .warn "STOP ON FAILURE! stopping test set execution, continuing with other test sets"

/-- Runs steps in order. -/
def runSteps (policy : RetryPolicy) : List Step → Progress → Program Progress
  | [], p => .done p
  | .operation op :: rest, p => do
    match ← op.run p.context with
    | (.ok _, context) => runSteps policy rest { p with context := context }
    | (.error e, context) =>
      let result := op.failure e
      Program.notes result.notes
      runSteps policy rest (p.add result context)
  | .configure change :: rest, p =>
    runSteps policy rest { p with context := change.apply p.context }
  | .test t config :: rest, p => do
    let (result, context) ← t.run policy config p.context
    let p := p.add result context
    if !result.passed && t.stopOnFailure then
      Program.notes [stopNote]
      return { p with stoppedEarly := true }
    match t.delay with
    | some d => Program.pause d
    | none => pure ()
    runSteps policy rest p

/-- Prepares tests in order. -/
def prepareAll : List (Test × Config) → Context → List (Except Failure Request) × Context
  | [], context => ([], context)
  | (t, _) :: rest, context =>
    let (request, context) := t.prepare.run.run context
    let (requests, context) := prepareAll rest context
    (request :: requests, context)

/-- Judges the replies of tests in order. -/
def judgeAll : List ((Test × Config) × Except Failure Request × Option Reply) → Progress →
    Program Progress
  | [], p => .done p
  | ((t, config), request, reply) :: rest, p => do
    let judgement : Judgement := match request, reply with
      | .ok request, some reply => t.judge config request reply p.context
      | .error failure, _ => ⟨.failed t t.url failure, p.context, []⟩
      | .ok request, none =>
        let failure : Failure :=
          { kind := .testException, message := "Request was not dispatched" }
        ⟨.failed t request.url failure, p.context, []⟩
    Program.notes (judgement.lines.map .line ++ judgement.result.notes)
    judgeAll rest (p.add judgement.result judgement.context)

/-- Runs tests that cannot affect each other: all are prepared in order, sent side by side and
judged in order. -/
def runParallel (policy : RetryPolicy) (tests : List (Test × Config)) (p : Progress) :
    Program Progress := do
  let (requests, context) := prepareAll tests p.context
  let exchanges := (tests.zip requests).map fun x => x.1.2.exchange? policy x.2
  let replies ← Program.performAll exchanges
  judgeAll (tests.zip (requests.zip replies)) { p with context := context }

/-- Runs a set in a context of its own. -/
def run (policy : RetryPolicy) (env : Environment) (s : TestSet) : Program Outcome := do
  let start : Progress := ⟨s.config.newContext env, [], false⟩
  let p ←
    if s.config.testParallel && s.isIndependent then runParallel policy s.tests start
    else runSteps policy s.steps start
  return ⟨s.name, p.results, p.context, p.stoppedEarly, s.config.skipTermColors⟩

/-- At least the number of instants at which something happens in a run of the set. -/
def turns (s : TestSet) : Nat :=
  s.steps.foldl (fun n step =>
    match step with
    | .test _ config => n + (2 * config.retries + 4)
    | _ => n + 2) 0

end TestSet

end HttpSuite
