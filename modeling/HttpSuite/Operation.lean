import HttpSuite.Context
import HttpSuite.Document.Fields
import HttpSuite.Duration

/-!
# Operations

Steps between tests that send no request: they print, wait or bind variables.
-/

namespace HttpSuite

/-- The kinds of operations that need no declaration. -/
inductive OperationKind where
  | print
  | delay
  | bind
deriving DecidableEq

namespace OperationKind

def all : List OperationKind := [print, delay, bind]

def name : OperationKind → String
  | print => "print"
  | delay => "delay"
  | bind => "bind"

end OperationKind

inductive Operation where
  | print (message : Value)
  | delay (duration : Duration)
  | bind (bindings : Mapping)

namespace Value

/-- The number of seconds or milliseconds of a value. -/
def binary64? (v : Value) : Option Binary64 := v.number?.map Number.toBinary64

end Value

/-- The duration of a number of seconds, which must not be too large. -/
def Duration.ofSeconds (x : Binary64) : Except CompileError Duration :=
  (ofSeconds? x).elim (.error .tooLong) .ok

namespace Operation

def kind : Operation → OperationKind
  | print _ => .print
  | delay _ => .delay
  | bind _ => .bind

def describe : Operation → String
  | print message => "print " ++ message.toText
  | delay duration => "delay " ++ duration.toText
  | bind bindings => "bind " ++ String.intercalate ", " (Entries.keys bindings)

/-- The seconds of a pause: given as such or, failing that, in milliseconds. -/
def pauseOf (config : Mapping) : Option Binary64 :=
  match Entries.get? "seconds" config, Entries.get? "milliseconds" config with
  | some v, _ => v.binary64?
  | none, some v => v.binary64?.bind fun ms => ms.div? (Binary64.ofInt 1000)
  | none, none => none

/-- The operation of a kind and a configuration. -/
def declare (kind : OperationKind) (config : Mapping) : Except CompileError Operation :=
  match kind with
  | .print =>
    match Entries.get? "message" config with
    | some message => .ok (print message)
    | none => .error (.invalid "print operation" (.fieldRequired "message"))
  | .delay =>
    match (pauseOf config).filter fun x => !x.negative || x.isZero with
    | none => .error (.invalid "delay operation" .pauseRequired)
    | some x => (Duration.ofSeconds x).map delay
  | .bind =>
    match Entries.get? "variables" config with
    | some (.object (entry :: rest)) => .ok (bind (entry :: rest))
    | _ => .error (.invalid "bind operation" .bindingsRequired)

/-- Resolves all values in one pass, before any is bound. -/
def resolveAll : Mapping → PassM Mapping
  | [] => pure []
  | (name, v) :: rest => do
    let w ← PassM.resolve v
    return (name, w) :: (← resolveAll rest)

end Operation

end HttpSuite
