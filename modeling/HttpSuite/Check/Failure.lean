/-!
# Failures

One reason why a test did not pass, as it is shown and logged.
-/

namespace HttpSuite

inductive FailureKind where
  | invalidResponse
  | transport
  | timeout
  | validatorFailed
  | validatorException
  | extractorException
  | testException
  | operationFailed
deriving DecidableEq

def FailureKind.label : FailureKind → String
  | invalidResponse => "Invalid HTTP Response Code"
  | transport => "Transport Error"
  | timeout => "Request Timeout"
  | validatorFailed => "Validator Failed"
  | validatorException => "Validator Exception"
  | extractorException => "Extractor Exception"
  | testException => "Test Exception"
  | operationFailed => "Operation Failed"

structure Failure where
  kind : FailureKind
  message : String
  details : Option String := none
  /-- The kind and description of the validator that failed. -/
  validator : Option String := none

/-- The failure on one line. -/
def Failure.display (f : Failure) : String :=
  let details := match f.details with
    | some d => " (" ++ d ++ ")"
    | none => ""
  "[" ++ f.kind.label ++ "] " ++ f.message ++ details

end HttpSuite
