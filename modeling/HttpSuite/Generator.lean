import HttpSuite.Template
import HttpSuite.Template.Error

/-!
# Generators

A generator is declared once and started anew for every run; the running generator is a `Stream`,
which each pull advances.  Sequences stay inside the signed 64-bit range: a value beyond a limit is
the limit.
-/

namespace HttpSuite

/-- Environment variables and their values.  One whose value is no text counts as not set. -/
abbrev Environment := List (String × String)

/-- A declared generator. -/
inductive Generator where
  /-- `start`, `start + increment`, `start + 2 * increment` and so on. -/
  | sequence (start increment : Int)
  /-- `start`, `2 * start`, `4 * start` and so on. -/
  | doubling (start : Int)
  /-- Each value once in order. -/
  | fixed (values : List Value)
  /-- The values in order, over and over. -/
  | cycle (values : List Value)
  /-- The value of an environment variable, or a default where it is not set. -/
  | environmentVariable (name : String) (default : Option Value)
  /-- A template over environment variables. -/
  | environmentText (template : String)

/-- A running generator. -/
inductive Stream where
  | sequence (next increment : Int)
  | doubling (next : Int)
  | fixed (values : List Value) (position : Nat)
  | cycle (values : List Value) (position : Nat)
  | environmentVariable (name : String) (default : Option Value)
  | environmentText (template : String)

namespace Generator

/-- The nearest number of the signed 64-bit range. -/
def clamp (i : Int) : Int := max Number.minInt (min Number.maxInt i)

def kind : Generator → String
  | sequence .. => "number_sequence"
  | doubling .. => "doubling"
  | fixed .. => "fixed_sequence"
  | cycle .. => "choice_sequence"
  | environmentVariable .. => "env_variable"
  | environmentText .. => "env_string"

/-- The generator before its first pull. -/
def start : Generator → Stream
  | sequence s i => .sequence s i
  | doubling s => .doubling s
  | fixed values => .fixed values 0
  | cycle values => .cycle values 0
  | environmentVariable name default => .environmentVariable name default
  | environmentText template => .environmentText template

end Generator

namespace Environment

/-- A lookup that fails at a variable that is not set. -/
def lookup (env : Environment) (name : String) : Except GeneratorError Value :=
  match Entries.get? name env with
  | some value => .ok (.string value)
  | none => .error (.missingEnvironment name)

/-- The text of a template over environment variables.  The names are looked up in reading order. -/
def render (env : Environment) (template : String) : Except GeneratorError Value := do
  let bound ← (Template.names (.string template)).mapM fun name => do
    return (name, ← env.lookup name)
  let resolved ← Template.resolveText (fun name =>
    match Entries.get? name bound with
    | some value => .ok value
    | none => .error (.missingEnvironment (TemplateError.unbound name).message)) template
  return .string resolved.render

end Environment

namespace Stream

/-- The next value, or why there is none, and the stream after the pull. -/
def pull (env : Environment) : Stream → Except GeneratorError Value × Stream
  | sequence next increment =>
    (.ok (.int next), sequence (Generator.clamp (next + increment)) increment)
  | doubling next => (.ok (.int next), doubling (Generator.clamp (next * 2)))
  | fixed values position =>
    match values[position]? with
    | some v => (.ok v, fixed values (position + 1))
    | none => (.error (.exhausted position), fixed values position)
  | cycle values position =>
    match values[position]? with
    | some v => (.ok v, cycle values (position + 1))
    | none =>
      match values with
      | [] => (.error (.exhausted position), cycle values position)
      | v :: _ => (.ok v, cycle values 1)
  | environmentVariable name default =>
    match Entries.get? name env, default with
    | some value, _ => (.ok (.string value), environmentVariable name default)
    | none, some value => (.ok value, environmentVariable name default)
    | none, none => (.error (.missingEnvironment name), environmentVariable name default)
  | environmentText template => (env.render template, environmentText template)

end Stream

end HttpSuite
