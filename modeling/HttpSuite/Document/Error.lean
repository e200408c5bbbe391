import HttpSuite.Http.Method
import HttpSuite.Template.Error
import HttpSuite.Value.Text

/-!
# What is wrong with a document

Every way in which a test document can fail to compile, with its wording.
-/

namespace HttpSuite

/-- What is wrong with one part of a document. -/
inductive Fault where
  | notMapping (got : Value)
  | entryNotMapping (got : Value)
  | configurationNotMapping
  | generatorNotMapping
  | operationNotMapping
  | notOneType (got : Value)
  | fieldRequired (field : String)
  | typeRequired (name : String)
  | integerExpected (field : String) (got : Value)
  | valuesEmpty
  | valuesRequired
  | pauseRequired
  | bindingsRequired
  | queryExpected (got : Value)
  | textExpected (got : Value)
  | severalExtractors
  | extractorRequired
  | unknownTest (name : String)
  | urlNotText (got : Value)
  | unsupportedMethod (text : String)
  | statusCode (got : Value)
  | validatorsNotList (got : Value)
  | readsBody (name : String)
  | booleanExpected (field : String) (got : Value)
  | flagExpected (field : String) (got : Value)
  | delayExpected
  | timeoutExpected
  | retriesExpected
  | unknownKey (part key : String)

namespace Fault

/-- A value as it was written: a string in single quotes, anything else as its text. -/
private def written : Value → String
  | .string s => "'" ++ s ++ "'"
  | v => v.toText

private def quoted (s : String) : String := "'" ++ s ++ "'"

def message : Fault → String
  | notMapping got => "expected a mapping, got " ++ got.toText
  | entryNotMapping got => "list entries must be mappings, got " ++ got.toText
  | configurationNotMapping => "configuration must be a mapping"
  | generatorNotMapping => "generator configuration must be a mapping"
  | operationNotMapping => "an operation must be a mapping"
  | notOneType got => "expected a mapping with exactly one type key, got " ++ got.toText
  | fieldRequired field => quoted field ++ " is required"
  | typeRequired name => quoted name ++ " needs a string 'type'"
  | integerExpected field (.number _) => quoted field ++ " must be an integer"
  | integerExpected field got => quoted field ++ " must be an integer, got " ++ written got
  | valuesEmpty => "'values' must not be empty"
  | valuesRequired => "'values' list is required"
  | pauseRequired => "'seconds' or 'milliseconds' must be a non-negative number"
  | bindingsRequired => "'variables' must be a non-empty mapping"
  | queryExpected got => "expected a query string, got " ++ got.toText
  | textExpected got => "expected text, got " ++ got.toText
  | severalExtractors => "only one extractor may be declared"
  | extractorRequired => "an extractor is required"
  | unknownTest name => "unknown test " ++ quoted name
  | urlNotText got => "'url' must be a string, got " ++ got.toText
  | unsupportedMethod text => Method.unsupported text
  | statusCode got => "invalid expected status code " ++ got.toText
  | validatorsNotList got => "'validators' must be a list, got " ++ got.toText
  | readsBody name =>
    "extractor " ++ quoted name ++ " reads the response body and cannot run before the request"
  | booleanExpected field got => quoted field ++ " must be a boolean, got " ++ written got
  | flagExpected field got => quoted field ++ " must be a boolean, got " ++ got.toText
  | delayExpected => "'delay' must be a non-negative number of seconds"
  | timeoutExpected => "'timeout' must be a positive number of seconds"
  | retriesExpected => "'retries' must be a non-negative integer"
  | unknownKey part key => "unknown " ++ part ++ " key " ++ quoted key

end Fault

/-- What is wrong with a node of a document. -/
inductive NodeFault where
  | notSingleKey (got : Value)
  | documentNotList (got : Value)
  | urlNotText (got : Value)
  | importNotPath (got : Value)
  | unknownNode (key : String)

def NodeFault.message : NodeFault → String
  | notSingleKey got => "each node must be a mapping with exactly one key, got " ++ got.toText
  | documentNotList got => "a test document must be a list of nodes, got " ++ got.toText
  | urlNotText got => "'url' must be a string, got " ++ got.toText
  | importNotPath got => "'import' must be a path, got " ++ got.toText
  | unknownNode key => "unknown node type '" ++ key ++ "'"

/-- Why a document does not compile. -/
inductive CompileError where
  | malformedNode (fault : NodeFault)
  | unknownType (kind key : String)
  | invalid (part : String) (fault : Fault)
  | fileRead (path reason : String)
  | fileParse (path reason : String)
  | template (cause : TemplateError)
  /-- A finite number of seconds that no duration holds. -/
  | tooLong

def CompileError.message : CompileError → String
  | malformedNode fault => "Malformed node: " ++ fault.message
  | unknownType kind key => "Unknown " ++ kind ++ " type: " ++ key
  | invalid part fault => "Invalid " ++ part ++ " configuration: " ++ fault.message
  | fileRead path reason => "Failed to read test file " ++ path ++ ": " ++ reason
  | fileParse path reason => "Failed to parse test file " ++ path ++ ": " ++ reason
  | template cause => "Template error in configuration: " ++ cause.message
  | tooLong => "a number of seconds is too large for a duration"

end HttpSuite
