import HttpSuite.Extension.Manifest
import HttpSuite.Registry

/-!
# Loading extensions

The manifests of a directory are read in the order of their names, and the sections of each in a
fixed order.  A name is registered over whatever it stood for, so a declaration refers to the kinds
as they are registered before it.  What was registered before a fault stays.
-/

namespace HttpSuite

namespace Registry

def addValidator (name : String) (a : Alias ValidatorKind) (r : Registry) : Registry :=
  { r with validators := Entries.insert name a r.validators }

def addExtractor (name : String) (a : Alias ExtractorKind) (r : Registry) : Registry :=
  { r with extractors := Entries.insert name a r.extractors }

def addGenerator (name : String) (a : Alias GeneratorKind) (r : Registry) : Registry :=
  { r with generators := Entries.insert name a r.generators }

def addOperation (name : String) (a : Alias OperationKind) (r : Registry) : Registry :=
  { r with operations := Entries.insert name a r.operations }

end Registry

namespace Extension

/-- What has been registered so far. -/
structure Progress where
  registry : Registry
  names : List String

abbrev LoadM := ExceptT SettingsError (StateM Progress)

def isManifest (name : String) : Bool :=
  ((Path.extension? name).map fun e => ["yaml", "yml", "json"].contains e).getD false

/-- The paths of the manifests in a directory. -/
def manifests (tree : FileTree) (directory : String) : Except SettingsError (List String) :=
  match tree.locate directory with
  | .ok location =>
    if tree.isDirectory directory then
      .ok (((tree.filesIn location).filter isManifest).map (Path.join directory))
    else .error (.notFound directory)
  | .error _ => .error (.notFound directory)

def manifest (tree : FileTree) (path : String) : Except SettingsError Manifest :=
  match tree.read path with
  | .error fault => .error (.unreadable fault)
  | .ok text =>
    let manifest? := if Path.extension? path = some "json" then Manifest.ofJson? text
      else Manifest.ofYaml? text
    match manifest? with
    | none => .error (.invalidManifest path .malformed)
    | some m => if m.isEmpty then .error (.invalidManifest path .empty) else .ok m

/-- Registers the declarations of a section, each over the kind it names. -/
def register {κ : Type} (path kind : String) (find? : Registry → String → Option (Alias κ))
    (add : String → Alias κ → Registry → Registry) (fields : Mapping) : LoadM Unit := do
  let declarations ← match Declaration.ofSection fields with
    | .ok ds => pure ds
    | .error fault => throw (.invalidManifest path fault)
  for d in declarations do
    match find? (← get).registry d.base with
    | none => throw (.invalidManifest path (.unknownBase kind d.name d.base))
    | some a =>
      modify fun p => ⟨add d.name (a.preset d.preset) p.registry, p.names ++ [d.name]⟩

/-- Registers what a manifest declares. -/
def loadManifest (tree : FileTree) (path : String) : LoadM Unit := do
  let m ← match manifest tree path with
    | .ok m => pure m
    | .error e => throw e
  register path "validator" Registry.validator? Registry.addValidator m.validators
  register path "extractor" Registry.extractor? Registry.addExtractor m.extractors
  register path "generator" Registry.generator? Registry.addGenerator m.generators
  register path "operation" Registry.operation? Registry.addOperation m.operations

/-- Registers what the manifests of a directory declare, and gives the names in order and the
registry that there is at the end or at the first fault. -/
def loadInto (tree : FileTree) (directory : String) (r : Registry) :
    Except SettingsError (List String) × Registry :=
  let load : LoadM Unit := do
    match manifests tree directory with
    | .ok paths => paths.forM (loadManifest tree)
    | .error e => throw e
  let (outcome, p) := load.run.run ⟨r, []⟩
  (outcome.map fun _ => p.names, p.registry)

/-- The registry with what the manifests of a directory declare. -/
def load (tree : FileTree) (directory : String) (r : Registry) : Except SettingsError Registry :=
  match loadInto tree directory r with
  | (.ok _, r) => .ok r
  | (.error e, _) => .error e

end Extension

end HttpSuite
