import HttpSuite.Generator

/-!
# Contexts and resolution passes

A context holds the variables and running generators that the steps of one run share.  Templates are
resolved in passes: within one pass a generator is pulled at its first reference, and later
references give the same value.  A variable hides a generator of the same name.
-/

namespace HttpSuite

@[ext]
structure Context where
  environment : Environment
  bindings : Mapping
  generators : List (String × Stream)

namespace Context

def empty (env : Environment) : Context := ⟨env, [], []⟩

def get? (c : Context) (name : String) : Option Value := Entries.get? name c.bindings

/-- Binds a variable in place of its former value. -/
def bind (c : Context) (name : String) (value : Value) : Context :=
  { c with bindings := Entries.insert name value c.bindings }

def bindAll (c : Context) (bindings : Mapping) : Context :=
  bindings.foldl (fun c entry => c.bind entry.1 entry.2) c

/-- Starts a generator in place of one of the same name. -/
def addGenerator (c : Context) (name : String) (generator : Generator) : Context :=
  { c with generators := Entries.insert name generator.start c.generators }

def addGenerators (c : Context) (generators : List (String × Generator)) : Context :=
  generators.foldl (fun c entry => c.addGenerator entry.1 entry.2) c

def hasGenerator (c : Context) (name : String) : Bool := Entries.contains name c.generators

/-- Pulls the generator of a name. -/
def next (c : Context) (name : String) : Except GeneratorError Value × Context :=
  match Entries.get? name c.generators with
  | none => (.error (.notFound name), c)
  | some stream =>
    let (result, stream) := stream.pull c.environment
    (result, { c with generators := Entries.insert name stream c.generators })

/-- Pulls a generator and binds its value to a variable. -/
def bindNext (c : Context) (name generator : String) :
    Except GeneratorError Value × Context :=
  match c.next generator with
  | (.ok value, c) => (.ok value, c.bind name value)
  | (.error e, c) => (.error e, c)

/-! ## Resolution against the variables alone -/

def lookupBound (c : Context) (name : String) : Except TemplateError Value :=
  match c.get? name with
  | some value => .ok value
  | none => .error (.unbound name)

def resolveBound (c : Context) (v : Value) : Except TemplateError Value :=
  Template.resolve c.lookupBound v

def renderBound (c : Context) (s : String) : Except TemplateError String :=
  (c.resolveBound (.string s)).map Value.render

end Context

/-! ## Passes -/

/-- A context and the values of the generators pulled so far in the pass. -/
structure Pass where
  context : Context
  pulled : Mapping

/-- What is done in a pass.  Pulls remain when a later reference fails. -/
abbrev PassM := ExceptT TemplateError (StateM Pass)

namespace PassM

/-- The value of a name: its variable, else what the pass has pulled, else the next value of its
generator. -/
def lookup (name : String) : PassM Value := fun pass =>
  match pass.context.get? name, Entries.get? name pass.pulled with
  | some value, _ => (.ok value, pass)
  | none, some value => (.ok value, pass)
  | none, none =>
    if pass.context.hasGenerator name then
      match pass.context.next name with
      | (.ok value, context) => (.ok value, ⟨context, pass.pulled ++ [(name, value)]⟩)
      | (.error e, context) => (.error (.generator name e), ⟨context, pass.pulled⟩)
    else (.error (.unbound name), pass)

def resolve (v : Value) : PassM Value := Template.resolve lookup v

/-- A string with its references replaced, as text. -/
def resolveString (s : String) : PassM String := do return (← resolve (.string s)).render

/-- The variable of a name. -/
def getVariable (name : String) : PassM (Option Value) := fun pass =>
  (.ok (pass.context.get? name), pass)

end PassM

namespace Context

/-- Does something in a new pass. -/
def pass {α : Type} (c : Context) (action : PassM α) : Except TemplateError α × Context :=
  let (result, pass) := action.run.run ⟨c, []⟩
  (result, pass.context)

/-- Resolves a value in a pass of its own. -/
def resolve (c : Context) (v : Value) : Except TemplateError Value × Context :=
  c.pass (PassM.resolve v)

end Context

end HttpSuite
