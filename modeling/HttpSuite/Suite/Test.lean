import HttpSuite.Registry

/-!
# Tests

A test is one request with what is bound before it, what is checked after it and what is bound then.
Fields that hold templates are resolved anew for every run.
-/

namespace HttpSuite

structure Test where
  name : String
  url : String
  method : Method
  headers : Mapping
  body : Option Value
  /-- The accepted codes; none means any code from 200 to 299. -/
  expectedStatus : List Nat
  validators : List Validator
  extractorsBefore : List (String × Extractor)
  extractorsAfter : List (String × Extractor)
  /-- Variables and the generators whose next values they take. -/
  generatorBinds : List (String × String)
  variableBinds : Mapping
  stopOnFailure : Bool
  group : String
  delay : Option Duration
  authUsername : Option Value
  authPassword : Option Value

namespace Test

def defaultGroup : String := "Default"

/-- The variable that holds the address before relative ones. -/
def baseUrlVariable : String := "default_base_url"

/-- A test that gets an address and is named by it. -/
def ofUrl (url : String) : Test where
  name := url
  url := url
  method := .get
  headers := []
  body := none
  expectedStatus := []
  validators := []
  extractorsBefore := []
  extractorsAfter := []
  generatorBinds := []
  variableBinds := []
  stopOnFailure := false
  group := defaultGroup
  delay := none
  authUsername := none
  authPassword := none

/-! ## Declaration -/

def invalid {α : Type} (fault : Fault) : Except CompileError α :=
  .error (.invalid "test" fault)

/-- A truth value, or a word for one in any letter case. -/
def boolOf (field : String) (v : Value) : Except CompileError Bool :=
  match v with
  | .bool b => .ok b
  | .string s =>
    match lower (trimmed s) with
    | "true" | "yes" | "1" => .ok true
    | "false" | "no" | "0" => .ok false
    | _ => invalid (.booleanExpected field v)
  | _ => invalid (.booleanExpected field v)

/-- A status code from 100 to 599, as a number or in decimal digits. -/
def statusOf (v : Value) : Except CompileError Nat :=
  let code : Option Nat := match v with
    | .number (.int i) => if 0 ≤ i then some i.toNat else none
    | .string s => Text.unsigned? (trimmed s)
    | _ => none
  match code.filter fun n => 100 ≤ n && n ≤ 599 with
  | some n => .ok n
  | none => invalid (.statusCode v)

def statusesOf (v : Value) : Except CompileError (List Nat) :=
  match v with
  | .array codes => codes.mapM statusOf
  | v => (statusOf v).map ([·])

def validatorsOf (r : Registry) (v : Value) : Except CompileError (List Validator) :=
  match v with
  | .array nodes => nodes.mapM r.validatorOf
  | .object fields => fields.mapM fun (key, config) => r.declareValidator key config
  | v => invalid (.validatorsNotList v)

def extractorsOf (r : Registry) (v : Value) :
    Except CompileError (List (String × Extractor)) := do
  (← Fields.ofValue v "extractors").mapM fun (name, node) => do
    return (name, ← r.extractorOf node)

def delayOf (v : Value) : Except CompileError Duration :=
  match v.binary64?.filter fun x => !x.negative || x.isZero with
  | none => invalid .delayExpected
  | some x => Duration.ofSeconds x

/-- The test with one more field, its key in small letters. -/
def setField (r : Registry) (t : Test) (key : String) (v : Value) : Except CompileError Test :=
  match key with
  | "url" => .ok t
  | "name" => .ok { t with name := v.render }
  | "method" =>
    match Method.ofText? v.render with
    | some m => .ok { t with method := m }
    | none => invalid (.unsupportedMethod v.render)
  | "headers" => do return { t with headers := ← Fields.ofValue v.unmark "headers" }
  | "body" => .ok { t with body := some v.unmark |>.filter (!·.isNull) }
  | "expected_status" => do return { t with expectedStatus := ← statusesOf v }
  | "validators" => do return { t with validators := ← validatorsOf r v }
  | "extractors" | "extract_binds" => do
    return { t with extractorsAfter := t.extractorsAfter ++ (← extractorsOf r v) }
  | "extractors_before" => do
    let xs ← extractorsOf r v
    match xs.find? fun x => x.2.readsResponse with
    | some (name, _) => invalid (.readsBody name)
    | none => return { t with extractorsBefore := xs }
  | "generator_binds" => do
    let binds ← Fields.ofValue v "generator_binds"
    return { t with generatorBinds := binds.map fun b => (b.1, b.2.render) }
  | "variable_binds" => do
    return { t with variableBinds := ← Fields.ofValue v "variable_binds" }
  | "stop_on_failure" => do return { t with stopOnFailure := ← boolOf "stop_on_failure" v }
  | "group" => .ok { t with group := v.render }
  | "delay" => do return { t with delay := some (← delayOf v) }
  | "auth_username" => .ok { t with authUsername := some v }
  | "auth_password" => .ok { t with authPassword := some v }
  | other => invalid (.unknownKey "test" other)

/-- The address of a declaration. -/
def urlOf (fields : Mapping) : Except CompileError String :=
  match (Entries.get? "url" fields).map Value.unmark with
  | none => invalid (.fieldRequired "url")
  | some (.string s) => .ok s
  | some (.number n) => .ok n.toText
  | some v => invalid (.urlNotText v)

/-- The test of a declaration: a mapping or a list of mappings. -/
def compile (r : Registry) (node : Value) : Except CompileError Test := do
  let fields ← Fields.lowered node "test"
  let url ← urlOf fields
  fields.foldlM (fun t f => t.setField r f.1 f.2) { ofUrl url with name := "Unnamed" }

/-! ## Properties -/

def expectsStatus (t : Test) (code : Nat) : Bool :=
  if t.expectedStatus.isEmpty then 200 ≤ code && code < 300 else t.expectedStatus.contains code

/-- Whether running the test can change what later steps see. -/
def writesContext (t : Test) : Bool :=
  !t.extractorsBefore.isEmpty || !t.extractorsAfter.isEmpty || !t.generatorBinds.isEmpty

/-! ## Requests -/

/-- Two parts of an address with one slash between them, where there is anything to separate. -/
def joinUrl (base path : String) : String :=
  match base.toList.getLast? == some '/', path.toList with
  | true, '/' :: rest => base ++ String.ofList rest
  | false, [] => base
  | false, c :: _ => if c = '/' then base ++ path else base ++ "/" ++ path
  | true, _ => base ++ path

/-- The address of the request: a relative one goes after the base, if that is bound. -/
def resolveUrl (t : Test) : PassM String := do
  let url ← PassM.resolveString t.url
  if Text.isPart "://".toList url.toList then return url
  match ← PassM.getVariable baseUrlVariable with
  | some base => return joinUrl base.render url
  | none => return url

def resolveHeaders : Mapping → PassM Headers
  | [] => pure []
  | (name, v) :: rest => do
    let w ← PassM.resolve v
    return (name, w.render) :: (← resolveHeaders rest)

def hasContentType (headers : Headers) : Bool := headers.any fun h => lower h.1 == "content-type"

/-- The body as text, and the header that says what it is where the test does not say. -/
def encodeBody (headers : Headers) (body : Option Value) : Option String × Headers :=
  let isJson := if hasContentType headers then [] else [("content-type", "application/json")]
  match body with
  | none => (none, headers)
  | some .null => (none, headers)
  | some (.object fields) => (some (Value.object fields).toText, headers ++ isJson)
  | some (.array items) => (some (Value.array items).toText, headers ++ isJson)
  | some v => (some v.render, headers)

def resolveBody : Option Value → PassM (Option Value)
  | none => pure none
  | some v => do return some (← PassM.resolve v)

/-- The credentials; a password counts only with a user. -/
def resolveAuth (t : Test) : PassM (Option Credentials) :=
  match t.authUsername, t.authPassword with
  | none, _ => pure none
  | some user, none => do return some ⟨(← PassM.resolve user).render, ""⟩
  | some user, some password => do
    let user ← PassM.resolve user
    let password ← PassM.resolve password
    return some ⟨user.render, password.render⟩

/-- The request, all of it resolved in one pass. -/
def resolveRequest (t : Test) : PassM Request := do
  let url ← t.resolveUrl
  let headers ← resolveHeaders t.headers
  let body ← resolveBody t.body
  let (body, headers) := encodeBody headers body
  let auth ← t.resolveAuth
  return ⟨t.method, url, headers, body, auth⟩

end Test

end HttpSuite
