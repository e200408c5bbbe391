import HttpSuite.Context
import HttpSuite.Document.Fields
import HttpSuite.Http.Message
import HttpSuite.JsonPath.Reader
import HttpSuite.Text.Decimal
import HttpSuite.Value.Reader

/-!
# Extractors

An extractor reads one value out of a response.  Those that do not look at the response may also run
before the request is sent.
-/

namespace HttpSuite

/-- The kinds of extractors that need no declaration. -/
inductive ExtractorKind where
  | keyPath
  | jsonPath
  | header
  | rawBody
  | constant
  | environment
deriving DecidableEq

namespace ExtractorKind

def all : List ExtractorKind := [keyPath, jsonPath, header, rawBody, constant, environment]

def name : ExtractorKind → String
  | keyPath => "jsonpath_mini"
  | jsonPath => "jsonpath"
  | header => "header"
  | rawBody => "raw_body"
  | constant => "constant"
  | environment => "env"

end ExtractorKind

inductive Extractor where
  /-- Keys and list positions with points between them. -/
  | keyPath (query : String)
  | jsonPath (query : String)
  /-- The last value of a header. -/
  | header (name : String)
  | rawBody
  | constant (value : Value)
  | environment (name : String)

/-- Why an extractor gives no value. -/
inductive ExtractError where
  | invalidJson (reason : String)
  | invalidQuery (query reason : String)
  | missingEnvironment (name : String)
  | template (cause : TemplateError)

def ExtractError.message : ExtractError → String
  | invalidJson reason => "Response body is not valid JSON: " ++ reason
  | invalidQuery query reason => "Invalid query '" ++ query ++ "': " ++ reason
  | missingEnvironment name => "Environment variable not set: " ++ name
  | template cause => "Template error in extractor query: " ++ cause.message

namespace Extractor

def kind : Extractor → ExtractorKind
  | keyPath _ => .keyPath
  | jsonPath _ => .jsonPath
  | header _ => .header
  | rawBody => .rawBody
  | constant _ => .constant
  | environment _ => .environment

def describe : Extractor → String
  | keyPath query => "jsonpath_mini '" ++ query ++ "'"
  | jsonPath query => "jsonpath '" ++ query ++ "'"
  | header name => "header '" ++ name ++ "'"
  | rawBody => "raw_body"
  | constant value => "constant " ++ value.toText
  | environment name => "env '" ++ name ++ "'"

/-- Whether the extractor needs a response. -/
def readsResponse : Extractor → Bool
  | constant _ => false
  | environment _ => false
  | _ => true

/-! ## Declaration -/

/-- The query of a declaration: a text that is not blank, or a number. -/
def queryOf (kind : ExtractorKind) (config : Value) : Except CompileError String :=
  match config.unmark with
  | .string s =>
    if isBlankText s then .error (.invalid kind.name (.queryExpected (.string s))) else .ok s
  | .number n => .ok n.toText
  | v => .error (.invalid kind.name (.queryExpected v))

/-- The extractor of a kind and a configuration. -/
def declare (kind : ExtractorKind) (config : Value) : Except CompileError Extractor :=
  match kind with
  | .keyPath => (queryOf kind config).map keyPath
  | .jsonPath => (queryOf kind config).map jsonPath
  | .header => (queryOf kind config).map header
  | .rawBody => .ok rawBody
  | .constant => .ok (constant config.unmark)
  | .environment => (queryOf kind config).map environment

/-! ## Paths of keys -/

/-- The parts of a text between points. -/
def splitPoints : List Char → List (List Char)
  | [] => [[]]
  | c :: cs =>
    match splitPoints cs with
    | [] => [[c]]
    | part :: parts => if c = '.' then [] :: part :: parts else (c :: part) :: parts

/-- The parts of a path; empty parts do not count. -/
def segments (path : String) : List String :=
  ((splitPoints path.toList).filter (!·.isEmpty)).map String.ofList

/-- One step from a value: a key of a mapping or a position of a list in decimal digits. -/
def child? (v : Value) (segment : String) : Option Value :=
  match v with
  | .object fields => Entries.get? segment fields
  | .array items => (Text.unsigned? segment).bind fun i => items[i]?
  | _ => none

/-- The value at the end of a path. -/
def walk? (v : Value) : List String → Option Value
  | [] => some v
  | segment :: rest => (child? v segment).bind fun w => walk? w rest

/-! ## Extraction -/

def bodyValue (body : List UInt8) : Except ExtractError Value :=
  match Value.ofJsonBytes? body with
  | some v => .ok v
  | none => .error (.invalidJson "malformed text")

/-- A template over the variables of a context. -/
def render (context : Context) (template : String) : Except ExtractError String :=
  (context.renderBound template).mapError .template

/-- What a path expression selects: one value stands for itself. -/
def selectPath (query : String) (document : Value) : Except ExtractError Value :=
  match JsonPath.ofText? query with
  | none => .error (.invalidQuery query "not a path expression")
  | some chain =>
    match JsonPath.select chain document with
    | .array [v] => .ok v
    | v => .ok v

/-- The value of an extractor for a response and a context. -/
def extract (x : Extractor) (body : List UInt8) (headers : Headers) (context : Context) :
    Except ExtractError Value :=
  match x with
  | keyPath query => do
    let query ← render context query
    let document ← bodyValue body
    return (walk? document (segments query)).getD .null
  | jsonPath query => do
    let query ← render context query
    let document ← bodyValue body
    selectPath query document
  | header name => do
    let name ← render context name
    return .ofText? (headers.last? name)
  | rawBody => .ok (.string (Utf8.lossyText body))
  | constant value => (context.resolveBound value).mapError .template
  | environment name => do
    let name ← render context name
    match Entries.get? name context.environment with
    | some value => return .string value
    | none => throw (.missingEnvironment name)

end Extractor

end HttpSuite
