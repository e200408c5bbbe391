import HttpSuite.Run.World
import HttpSuite.Suite.TestSet

/-!
# Preparing a request and judging its reply

Before a request is sent its test binds variables, pulls generators and runs the extractors that
need no response.  The reply is judged by its status, then by all validators; only a reply that
passes feeds the extractors that follow.
-/

namespace HttpSuite

/-- What became of one test, or of one operation that failed. -/
structure TestResult where
  name : String
  url : String
  group : String
  passed : Bool
  code : Option Nat
  headers : Headers
  failures : List Failure

namespace TestResult

/-- The result of a test without a response. -/
def failed (test : Test) (url : String) (failure : Failure) : TestResult :=
  ⟨test.name, url, test.group, false, none, [], [failure]⟩

/-- What is logged about a result. -/
def notes (r : TestResult) : List Note :=
  let code := (r.code.map toString).getD "none"
  let line := r.name ++ " URL=" ++ r.url ++ " Group=" ++ r.group ++ " HTTP Status Code: " ++ code
  if r.passed then [.log .info ("Test Succeeded: " ++ line)]
  else .log .error ("Test Failed: " ++ line) :: r.failures.flatMap fun f =>
    .log .error ("  " ++ f.display) :: match f.validator with
      | some v => [.log .error ("    validator: " ++ v)]
      | none => []

end TestResult

/-! ## Before the request -/

/-- What is done to a context until something fails. -/
abbrev Preparation := ExceptT Failure (StateM Context)

namespace Preparation

def unresolved (e : TemplateError) : Failure :=
  { kind := .testException, message := "Failed to resolve test fields", details := some e.message }

def notExtracted (name : String) (e : ExtractError) : Failure :=
  { kind := .extractorException, message := "Extractor for '" ++ name ++ "' failed",
    details := some e.message }

def notGenerated (name generator : String) (e : GeneratorError) : Failure :=
  { kind := .testException,
    message := "Generator '" ++ generator ++ "' failed while binding '" ++ name ++ "'",
    details := some e.message }

/-- Something done in a pass of its own. -/
def pass {α : Type} (action : PassM α) : Preparation α := fun context =>
  match context.pass action with
  | (.ok a, context) => (.ok a, context)
  | (.error e, context) => (.error (unresolved e), context)

def bind (name : String) (v : Value) : Preparation Unit := modify fun c => c.bind name v

/-- Binds variables, each resolved in a pass of its own. -/
def bindVariables : Mapping → Preparation Unit
  | [] => pure ()
  | (name, template) :: rest => do
    let v ← pass (PassM.resolve template)
    bind name v
    bindVariables rest

/-- Binds the next value of a generator. -/
def bindNext (name generator : String) : Preparation Unit := fun context =>
  match context.bindNext name generator with
  | (.ok _, context) => (.ok (), context)
  | (.error e, context) => (.error (notGenerated name generator e), context)

def bindGenerated : List (String × String) → Preparation Unit
  | [] => pure ()
  | (name, generator) :: rest => do
    bindNext name generator
    bindGenerated rest

/-- Binds the values of extractors in order, each seeing those before it. -/
def bindExtracted (body : List UInt8) (headers : Headers) :
    List (String × Extractor) → Preparation Unit
  | [] => pure ()
  | (name, x) :: rest => do
    match x.extract body headers (← get) with
    | .ok v =>
      bind name v
      bindExtracted body headers rest
    | .error e => throw (notExtracted name e)

end Preparation

/-- Binds what the test binds and resolves its request. -/
def Test.prepare (t : Test) : Preparation Request := do
  Preparation.bindVariables t.variableBinds
  Preparation.bindGenerated t.generatorBinds
  Preparation.bindExtracted [] [] t.extractorsBefore
  Preparation.pass t.resolveRequest

/-! ## After the reply -/

/-- A result, the context after it and the lines that are printed. -/
structure Judgement where
  result : TestResult
  context : Context
  lines : List String

namespace Test

def wrongStatus (t : Test) (code : Nat) : Failure :=
  let wanted :=
    if t.expectedStatus.isEmpty then "2xx"
    else String.intercalate "," (t.expectedStatus.map toString)
  { kind := .invalidResponse,
    message := "Invalid HTTP response code: response code " ++ toString code ++
      " not in expected codes [" ++ wanted ++ "]" }

/-- The failure of a validator, if it does not accept the response. -/
def rejection (response : Response) (context : Context) (v : Validator) :
    Option Failure :=
  match v.validate response.body response.headers context with
  | .ok _ => none
  | .error f => some f

/-- The failures of the status or, where that is as expected, of the validators. -/
def rejections (t : Test) (response : Response) (context : Context) : List Failure :=
  if t.expectsStatus response.status then t.validators.filterMap (rejection response context)
  else [t.wrongStatus response.status]

/-- All failures of a response, and the context after the extractors that follow. -/
def check (t : Test) (response : Response) (context : Context) : List Failure × Context :=
  match t.rejections response context with
  | [] =>
    match (Preparation.bindExtracted response.body response.headers t.extractorsAfter).run.run
        context with
    | (.ok _, context) => ([], context)
    | (.error f, context) => ([f], context)
  | failures => (failures, context)

/-- What is printed about a response: its body and headers where that is asked for or the test did
not pass. -/
def shown (config : Config) (response : Response) (passed : Bool) : List String :=
  let title (text : String) : List String := if config.interactive then [text] else []
  let body :=
    if config.printBodies || !passed then
      title "RESPONSE:" ++ [Utf8.lossyText response.body]
    else []
  let headers :=
    if config.printHeaders || !passed then
      title "RESPONSE HEADERS:" ++ response.headers.map fun h => h.1 ++ ": " ++ h.2
    else []
  body ++ headers

def transportFailure (e : TransportError) : Failure :=
  let kind := match e with
    | .timeout _ => FailureKind.timeout
    | _ => .transport
  { kind := kind, message := "Transport error: " ++ e.message }

/-- Judges the reply to a request. -/
def judge (t : Test) (config : Config) (request : Request) (reply : Reply) (context : Context) :
    Judgement :=
  match reply with
  | .error e => ⟨.failed t request.url (transportFailure e), context, []⟩
  | .ok response =>
    let (failures, context) := t.check response context
    let passed := failures.isEmpty
    { result := ⟨t.name, request.url, t.group, passed, some response.status, response.headers,
        failures⟩
      context := context
      lines := shown config response passed }

end Test

end HttpSuite
