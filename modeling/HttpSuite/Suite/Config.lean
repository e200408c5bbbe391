import HttpSuite.Registry
import HttpSuite.Suite.Merge
import HttpSuite.Suite.Test

/-!
# Configurations

What the tests of a set share.  A configuration node is merged into the configuration in effect;
what it binds and declares is its `Change`, which a run that has already started applies to its
context.
-/

namespace HttpSuite

structure Config where
  timeout : Duration := .ofMilliseconds 10000
  retries : Nat := 0
  printBodies : Bool := false
  printHeaders : Bool := false
  variableBinds : Mapping := []
  generators : List (String × Generator) := []
  sslInsecure : Bool := false
  verbose : Bool := false
  skipTermColors : Bool := false
  testParallel : Bool := false
  interactive : Bool := false

/-- What a configuration node binds and declares. -/
structure Config.Change where
  bindings : Mapping := []
  generators : List (String × Generator) := []

namespace Config.Change

def isEmpty (c : Change) : Bool := c.bindings.isEmpty && c.generators.isEmpty

/-- Binds the variables and starts the generators anew. -/
def apply (c : Change) (context : Context) : Context :=
  (context.bindAll c.bindings).addGenerators c.generators

end Config.Change

namespace Config

/-- The context of a run that starts. -/
def newContext (c : Config) (env : Environment) : Context :=
  ((Context.empty env).bindAll c.variableBinds).addGenerators c.generators

/-! ## Merging a node -/

def invalid {α : Type} (fault : Fault) : Except CompileError α :=
  .error (.invalid "config" fault)

def flagOf (key : String) (v : Value) : Except CompileError Bool :=
  match v with
  | .bool b => .ok b
  | .string s =>
    if lower s = "true" then .ok true
    else if lower s = "false" then .ok false
    else invalid (.flagExpected key v)
  | v => invalid (.flagExpected key v)

def timeoutOf (v : Value) : Except CompileError Duration :=
  match v.binary64?.filter fun x => !x.negative && !x.isZero with
  | none => invalid .timeoutExpected
  | some x => Duration.ofSeconds x

def retriesOf (v : Value) : Except CompileError Nat :=
  match v with
  | .number (.int i) => if 0 ≤ i ∧ i < Nat.pow 2 32 then .ok i.toNat else invalid .retriesExpected
  | _ => invalid .retriesExpected

/-- The configuration with one more field of a node, its key in small letters, and the names of the
variables that the field binds.  Generators are left for later. -/
def setField (c : Config) (key : String) (v : Value) :
    Except CompileError (Config × List String) :=
  let flag (set : Bool → Config) : Except CompileError (Config × List String) := do
    return (set (← flagOf key v), [])
  match key with
  | "timeout" => do return ({ c with timeout := ← timeoutOf v }, [])
  | "retries" => do return ({ c with retries := ← retriesOf v }, [])
  | "print_bodies" => flag fun b => { c with printBodies := b }
  | "print_headers" => flag fun b => { c with printHeaders := b }
  | "ssl_insecure" => flag fun b => { c with sslInsecure := b }
  | "verbose" => flag fun b => { c with verbose := b }
  | "skip_term_colors" => flag fun b => { c with skipTermColors := b }
  | "test_parallel" => flag fun b => { c with testParallel := b }
  | "interactive" => flag fun b => { c with interactive := b }
  | "variable_binds" => do
    let binds ← Fields.ofValue v "variable_binds"
    return ({ c with variableBinds := Mapping.merge c.variableBinds binds }, Entries.keys binds)
  | "default_base_url" =>
    let name := Test.baseUrlVariable
    .ok ({ c with variableBinds := Entries.insert name (.string v.render) c.variableBinds },
      [name])
  | "generators" => .ok (c, [])
  | other => invalid (.unknownKey "config" other)

/-- The configuration with the fields of a node in order, up to the first fault. -/
def setFields (c : Config) (touched : List String) :
    Mapping → Except CompileError (List String) × Config
  | [] => (.ok touched, c)
  | (key, v) :: rest =>
    match c.setField key v with
    | .ok (c, names) => setFields c (touched ++ names) rest
    | .error e => (.error e, c)

/-- The generator of a declaration, whose references are to the variables bound so far. -/
def generatorOf (r : Registry) (c : Config) (name : String) (declaration : Value) :
    Except CompileError Generator :=
  match (declaration.field? "type").bind Value.string? with
  | none => .error (.invalid "generator" (.typeRequired name))
  | some kind => r.declareGenerator kind declaration c.variableBinds

/-- The configuration with declared generators in order, up to the first fault, and those
declared. -/
def setGenerators (r : Registry) (c : Config) (declared : List (String × Generator)) :
    Mapping → Except CompileError (List (String × Generator)) × Config
  | [] => (.ok declared, c)
  | (name, declaration) :: rest =>
    match generatorOf r c name declaration with
    | .ok g =>
      setGenerators r { c with generators := Entries.insert name g c.generators }
        (declared ++ [(name, g)]) rest
    | .error e => (.error e, c)

/-- The variables that a node touched, with their merged values. -/
def touchedVariables (c : Config) (touched : List String) : Mapping :=
  Entries.ofList (touched.filterMap fun name =>
    (Entries.get? name c.variableBinds).map fun v => (name, v))

/-- Merges a node.  Variables are bound before generators are declared, wherever they stand in the
node.  What was merged before a fault stays. -/
def merge (r : Registry) (c : Config) (node : Value) : Except CompileError Change × Config :=
  match Fields.lowered node "config" with
  | .error e => (.error e, c)
  | .ok fields =>
    match c.setFields [] fields with
    | (.error e, c) => (.error e, c)
    | (.ok touched, c) =>
      let bindings := c.touchedVariables touched
      match Entries.get? "generators" fields with
      | none => (.ok ⟨bindings, []⟩, c)
      | some v =>
        match Fields.ofValue v "generators" with
        | .error e => (.error e, c)
        | .ok declarations =>
          match setGenerators r c [] declarations with
          | (.ok declared, c) => (.ok ⟨bindings, declared⟩, c)
          | (.error e, c) => (.error e, c)

end Config

end HttpSuite
