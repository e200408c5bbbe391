import HttpSuite.Check.Comparator
import HttpSuite.Check.Failure
import HttpSuite.Check.ValueTest
import HttpSuite.Extractor

/-!
# Validators

A validator looks at a response and accepts it or names a failure.  It sees the variables of the
context but never pulls a generator.
-/

namespace HttpSuite

/-- The kinds of validators that need no declaration. -/
inductive ValidatorKind where
  | contains
  | notContains
  | extractTest
  | comparison
  | assertTrue
deriving DecidableEq

namespace ValidatorKind

def name : ValidatorKind → String
  | contains => "contains"
  | notContains => "not_contains"
  | extractTest => "extract_test"
  | comparison => "comparator"
  | assertTrue => "assert_true"

end ValidatorKind

/-- Where the expected value of a comparison comes from. -/
inductive Expected where
  | literal (value : Value)
  | template (value : Value)
  | extracted (extractor : Extractor)

inductive Validator where
  | contains (needle : String)
  | notContains (needle : String)
  | extractTest (extractor : Extractor) (test : ValueTest) (testName : String)
  | comparison (extractor : Extractor) (comparator : Comparator) (expected : Expected)
  | assertTrue (extractor : Extractor) (message : Option String)

def Expected.describe : Expected → String
  | literal v => v.toText
  | template v => v.toText
  | extracted x => x.describe

namespace Validator

def kind : Validator → ValidatorKind
  | contains _ => .contains
  | notContains _ => .notContains
  | extractTest .. => .extractTest
  | comparison .. => .comparison
  | assertTrue .. => .assertTrue

def describe : Validator → String
  | contains needle => "'" ++ needle ++ "'"
  | notContains needle => "'" ++ needle ++ "'"
  | extractTest x _ testName => x.describe ++ " " ++ testName
  | comparison x c expected => x.describe ++ " " ++ c.name ++ " " ++ expected.describe
  | assertTrue x _ => x.describe

/-- The kind and description that a failure shows. -/
def label (v : Validator) : String := v.kind.name ++ ": " ++ v.describe

def fail (v : Validator) (kind : FailureKind) (message : String)
    (details : Option String) : Failure :=
  ⟨kind, message, details, some v.label⟩

def extract (v : Validator) (x : Extractor) (body : List UInt8) (headers : Headers)
    (context : Context) : Except Failure Value :=
  (x.extract body headers context).mapError fun e =>
    v.fail .validatorException ("Extractor " ++ x.describe ++ " failed: " ++ e.message) none

/-- The text to search for. -/
def needleOf (v : Validator) (needle : String) (context : Context) :
    Except Failure String :=
  (context.renderBound needle).mapError fun e =>
    v.fail .validatorException ("Cannot resolve search text: " ++ e.message) none

/-- The value that the extracted one is compared with. -/
def expectedValue (v : Validator) (expected : Expected) (body : List UInt8) (headers : Headers)
    (context : Context) : Except Failure Value :=
  match expected with
  | .literal value => .ok value
  | .template value => (context.resolveBound value).mapError fun e =>
    v.fail .validatorException ("Cannot resolve expected value: " ++ e.message) none
  | .extracted x => v.extract x body headers context

def holdsText (body : List UInt8) (needle : String) : Bool :=
  Text.isPart needle.toList (Utf8.lossyText body).toList

/-- Accepts a response or names the failure. -/
def validate (v : Validator) (body : List UInt8) (headers : Headers) (context : Context) :
    Except Failure Unit :=
  match v with
  | contains needle => do
    let needle ← v.needleOf needle context
    if holdsText body needle then return ()
    throw (v.fail .validatorFailed ("Response body does not contain '" ++ needle ++ "'") none)
  | notContains needle => do
    let needle ← v.needleOf needle context
    if !holdsText body needle then return ()
    throw (v.fail .validatorFailed
      ("Response body contains forbidden text '" ++ needle ++ "'") none)
  | extractTest x test testName => do
    let value ← v.extract x body headers context
    if test.holds value then return ()
    throw (v.fail .validatorFailed
      ("Extract test '" ++ testName ++ "' failed on " ++ x.describe)
      (some ("extracted value: " ++ value.toText)))
  | comparison x c expected => do
    let actual ← v.extract x body headers context
    let wanted ← v.expectedValue expected body headers context
    match c.apply actual wanted with
    | .ok true => return ()
    | .ok false => throw (v.fail .validatorFailed
        ("Comparison failed: " ++ actual.toText ++ " " ++ c.name ++ " " ++ wanted.toText)
        (some ("extracted with " ++ x.describe)))
    | .error e => throw (v.fail .validatorException
        ("Comparator '" ++ c.name ++ "' raised an error") (some e.message))
  | assertTrue x message => do
    let value ← v.extract x body headers context
    if value.isTruthy then return ()
    let text := message.getD ("Validator returned a falsy value for " ++ x.describe)
    throw (v.fail .validatorFailed text (some ("extracted value: " ++ value.toText)))

end Validator

end HttpSuite
