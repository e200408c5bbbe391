/-!
# Why a template has no value

A reference fails when its name is bound to nothing, or when the generator of that name has no next
value.
-/

namespace HttpSuite

/-- Why a generator has no next value. -/
inductive GeneratorError where
  /-- A finite generator has given all its values. -/
  | exhausted (produced : Nat)
  /-- No generator has this name. -/
  | notFound (name : String)
  /-- An environment variable is not set. -/
  | missingEnvironment (name : String)
deriving DecidableEq

def GeneratorError.message : GeneratorError → String
  | .exhausted produced => "Generator exhausted after " ++ toString produced ++ " values"
  | .notFound name => "Generator not found: " ++ name
  | .missingEnvironment name => "Environment variable not set: " ++ name

/-- Why a reference has no value. -/
inductive TemplateError where
  | unbound (name : String)
  | generator (name : String) (cause : GeneratorError)
deriving DecidableEq

def TemplateError.message : TemplateError → String
  | .unbound name => "Unbound variable in template: " ++ name
  | .generator name cause =>
    "Generator '" ++ name ++ "' failed during template resolution: " ++ cause.message

end HttpSuite
