import HttpSuite.Check.Validator
import HttpSuite.Operation

/-!
# The registry of kinds

Kinds are found by name in any letter case.  A name stands for a built-in kind under presets that
were fixed when the name was registered, so registering another name, or the same one again, never
changes what an earlier registration does.
-/

namespace HttpSuite

/-- A kind with presets, the last registered first. -/
structure Alias (κ : Type) where
  kind : κ
  presets : List Value

namespace Alias

/-- A configuration over a preset: two mappings field by field, nothing for the preset itself, and
anything else as it is. -/
def overlay (preset config : Value) : Value :=
  match preset, config with
  | preset, .null => preset
  | .object base, .object fields => .object (Entries.insertAll base fields)
  | _, config => config

/-- The configuration over all presets. -/
def configure {κ : Type} (a : Alias κ) (config : Value) : Value :=
  a.presets.foldl (fun config preset => overlay preset config) config

/-- The kind under one more preset. -/
def preset {κ : Type} (a : Alias κ) (preset : Value) : Alias κ := ⟨a.kind, preset :: a.presets⟩

def builtin {κ : Type} (kind : κ) : Alias κ := ⟨kind, []⟩

end Alias

/-- The kinds of generators that need no declaration. -/
inductive GeneratorKind where
  | sequence
  | doubling
  | fixed
  | cycle
  | environmentVariable
  | environmentText
deriving DecidableEq

structure Registry where
  validators : List (String × Alias ValidatorKind)
  extractors : List (String × Alias ExtractorKind)
  generators : List (String × Alias GeneratorKind)
  operations : List (String × Alias OperationKind)

namespace Registry

/-- The registry of the built-in kinds. -/
def builtins : Registry where
  validators := [
    ("contains", .builtin .contains), ("not_contains", .builtin .notContains),
    ("extract_test", .builtin .extractTest), ("comparator", .builtin .comparison),
    ("compare", .builtin .comparison), ("assert_true", .builtin .assertTrue)]
  extractors := ExtractorKind.all.map fun k => (k.name, .builtin k)
  generators := [
    ("number_sequence", .builtin .sequence), ("doubling", .builtin .doubling),
    ("fixed_sequence", .builtin .fixed), ("choice_sequence", .builtin .cycle),
    ("env_variable", .builtin .environmentVariable), ("env_string", .builtin .environmentText)]
  operations := OperationKind.all.map fun k => (k.name, .builtin k)

def validator? (r : Registry) (key : String) : Option (Alias ValidatorKind) :=
  Entries.get? (lower key) r.validators

def extractor? (r : Registry) (key : String) : Option (Alias ExtractorKind) :=
  Entries.get? (lower key) r.extractors

def generator? (r : Registry) (key : String) : Option (Alias GeneratorKind) :=
  Entries.get? (lower key) r.generators

def operation? (r : Registry) (key : String) : Option (Alias OperationKind) :=
  Entries.get? (lower key) r.operations

def hasValidator (r : Registry) (key : String) : Bool := (r.validator? key).isSome

def hasExtractor (r : Registry) (key : String) : Bool := (r.extractor? key).isSome

def hasGenerator (r : Registry) (key : String) : Bool := (r.generator? key).isSome

def hasOperation (r : Registry) (key : String) : Bool := (r.operation? key).isSome

end Registry

/-! ## Declarations of generators -/

namespace GeneratorKind

def name : GeneratorKind → String
  | sequence => "number_sequence"
  | doubling => "doubling"
  | fixed => "fixed_sequence"
  | cycle => "choice_sequence"
  | environmentVariable => "env_variable"
  | environmentText => "env_string"

def mappingOf (kind : GeneratorKind) (config : Value) : Except CompileError Mapping :=
  match config with
  | .object fields => .ok fields
  | _ => .error (.invalid kind.name .generatorNotMapping)

/-- An integer field: a number, or a text in decimal digits. -/
def integerOf (kind : GeneratorKind) (config : Mapping) (field : String) :
    Except CompileError Int :=
  let wrong (v : Value) : Except CompileError Int :=
    .error (.invalid kind.name (.integerExpected field v))
  match Entries.get? field config with
  | none => .ok 1
  | some (.number (.int i)) => if i ≤ Number.maxInt then .ok i else wrong (.int i)
  | some (.string s) =>
    match Text.signed? (trimmed s) with
    | some i => .ok i
    | none => wrong (.string s)
  | some v => wrong v

def valuesOf (kind : GeneratorKind) (config : Mapping) :
    Except CompileError (List Value) :=
  match Entries.get? "values" config with
  | some (.array []) => .error (.invalid kind.name .valuesEmpty)
  | some (.array values) => .ok values
  | _ => .error (.invalid kind.name .valuesRequired)

/-- The generator of a kind and a configuration without references. -/
def build (kind : GeneratorKind) (config : Mapping) : Except CompileError Generator :=
  match kind with
  | .sequence => do
    let start ← integerOf kind config "start"
    return .sequence start (← integerOf kind config "increment")
  | .doubling => do return .doubling (← integerOf kind config "start")
  | .fixed => (valuesOf kind config).map .fixed
  | .cycle => (valuesOf kind config).map .cycle
  | .environmentVariable =>
    match Entries.get? "variable_name" config with
    | some (.string name) => .ok (.environmentVariable name (Entries.get? "default" config))
    | _ => .error (.invalid kind.name (.fieldRequired "variable_name"))
  | .environmentText =>
    match Entries.get? "string" config with
    | some v => .ok (.environmentText v.render)
    | none => .error (.invalid kind.name (.fieldRequired "string"))

/-- The generator of a kind and a configuration.  References to variables are resolved at once, but
for a text over environment variables, whose references are to those. -/
def declare (kind : GeneratorKind) (config : Value) (bindings : Mapping) :
    Except CompileError Generator := do
  let config ←
    if kind = .environmentText then pure config
    else (({ Context.empty [] with bindings := bindings }).resolveBound config).mapError .template
  build kind (← mappingOf kind config)

end GeneratorKind

namespace Registry

/-! ## Declarations by name -/

def declareExtractor (r : Registry) (key : String) (config : Value) :
    Except CompileError Extractor :=
  match r.extractor? key with
  | some a => Extractor.declare a.kind (a.configure config)
  | none => .error (.unknownType "extractor" key)

def declareGenerator (r : Registry) (key : String) (config : Value) (bindings : Mapping) :
    Except CompileError Generator :=
  match r.generator? key with
  | some a => a.kind.declare (a.configure config) bindings
  | none => .error (.unknownType "generator" key)

def declareOperation (r : Registry) (key : String) (config : Mapping) :
    Except CompileError Operation :=
  match r.operation? key with
  | some a => Operation.declare a.kind ((a.configure (.object config)).object?.getD config)
  | none => .error (.unknownType "operation" key)

/-- The one entry of a declaration: the name of a kind and its configuration. -/
def singleType (node : Value) (part : String) : Except CompileError (String × Value) :=
  match node with
  | .object [entry] => .ok entry
  | _ => .error (.invalid part (.notOneType node))

def extractorOf (r : Registry) (node : Value) : Except CompileError Extractor := do
  let (key, config) ← singleType node "extractor"
  r.declareExtractor key config

/-! ## Declarations of validators -/

/-- The keys of a validator that never name an extractor. -/
def reservedKeys : List String := ["comparator", "expected", "test", "message"]

/-- The entries of a validator that declare an extractor. -/
def embedded (r : Registry) (config : Mapping) : Mapping :=
  config.filter fun e => !reservedKeys.contains (lower e.1) && r.hasExtractor e.1

/-- The one extractor declared in a validator.  A fault in the first comes before the fault that
there is a second. -/
def embeddedExtractor (r : Registry) (config : Mapping) (part : String) :
    Except CompileError Extractor :=
  match r.embedded config with
  | [] => .error (.invalid part .extractorRequired)
  | (key, v) :: rest => do
    let x ← r.declareExtractor (lower key) v
    if rest.isEmpty then return x
    throw (.invalid part .severalExtractors)

def validatorMapping (kind : ValidatorKind) (config : Value) :
    Except CompileError Mapping :=
  match config with
  | .object fields => .ok fields
  | _ => .error (.invalid kind.name .configurationNotMapping)

/-- The text to search for: any scalar but null. -/
def textOf (kind : ValidatorKind) (config : Value) : Except CompileError String :=
  match config.unmark with
  | .string s => .ok s
  | .bool b => .ok (Value.bool b).toText
  | .number n => .ok n.toText
  | v => .error (.invalid kind.name (.textExpected v))

/-- The expected value of a comparison: a marked or evident template, an extractor, or a value as
written. -/
def expectedOf (r : Registry) (expected : Value) : Except CompileError Expected :=
  match expected with
  | .object [(key, v)] =>
    if key = "template" then .ok (.template v)
    else if r.hasExtractor key then
      (r.embeddedExtractor [(key, v)] ValidatorKind.comparison.name).map .extracted
    else .ok (.literal expected)
  | .string s => .ok (if Template.isTemplate s then .template expected else .literal expected)
  | v => .ok (.literal v)

/-- The validator of a kind and a configuration. -/
def buildValidator (r : Registry) (kind : ValidatorKind) (config : Value) :
    Except CompileError Validator :=
  match kind with
  | .contains => (textOf kind config).map .contains
  | .notContains => (textOf kind config).map .notContains
  | .extractTest => do
    let fields ← validatorMapping kind config
    match Entries.get? "test" fields with
    | some (.string testName) =>
      match ValueTest.ofName? testName with
      | some test => return .extractTest (← r.embeddedExtractor fields kind.name) test testName
      | none => throw (.invalid kind.name (.unknownTest testName))
    | _ => throw (.invalid kind.name (.fieldRequired "test"))
  | .comparison => do
    let fields ← validatorMapping kind config
    let comparatorName := ((Entries.get? "comparator" fields).bind Value.string?).getD "eq"
    match Comparator.ofName? comparatorName with
    | none => throw (.unknownType "comparator" comparatorName)
    | some c =>
      match Entries.get? "expected" fields with
      | none => throw (.invalid kind.name (.fieldRequired "expected"))
      | some v =>
        let expected ← r.expectedOf v
        return .comparison (← r.embeddedExtractor fields kind.name) c expected
  | .assertTrue => do
    let fields ← validatorMapping kind config
    let x ← r.embeddedExtractor fields kind.name
    return .assertTrue x ((Entries.get? "message" fields).map Value.render)

def declareValidator (r : Registry) (key : String) (config : Value) :
    Except CompileError Validator :=
  match r.validator? key with
  | some a => r.buildValidator a.kind (a.configure config)
  | none => .error (.unknownType "validator" key)

def validatorOf (r : Registry) (node : Value) : Except CompileError Validator := do
  let (key, config) ← singleType node "validator"
  r.declareValidator key config

end Registry

end HttpSuite
