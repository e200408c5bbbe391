import HttpSuite.Duration
import HttpSuite.Http.Method

/-!
# Requests, responses and what goes wrong between them
-/

namespace HttpSuite

/-- Headers in order; a name may occur more than once. -/
abbrev Headers := List (String × String)

/-- The last value of a header, its name in any letter case. -/
def Headers.last? (headers : Headers) (name : String) : Option String :=
  (headers.reverse.find? fun h => lower h.1 == lower name).map (·.2)

structure Credentials where
  username : String
  password : String

/-- A request with every template resolved. -/
structure Request where
  method : Method
  url : String
  headers : Headers
  body : Option String
  auth : Option Credentials

/-- What a transport is told besides the request. -/
structure SendOptions where
  timeout : Duration
  sslInsecure : Bool
  verbose : Bool

structure Response where
  status : Nat
  headers : Headers
  body : List UInt8

/-- Why no response came. -/
inductive TransportError where
  | connection (message : String)
  | timeout (limit : Duration)
  | invalidRequest (message : String)
  | network (message : String)

namespace TransportError

def message : TransportError → String
  | connection m => "Connection failed: " ++ m
  | timeout limit => "Request timeout after " ++ limit.toText
  | invalidRequest m => "Invalid request: " ++ m
  | network m => "Network error: " ++ m

/-- Whether another attempt may succeed: a request that is not valid stays so. -/
def isRetryable : TransportError → Bool
  | invalidRequest _ => false
  | _ => true

end TransportError

end HttpSuite
