import HttpSuite.Document.Reader
import HttpSuite.Suite.TestSet

/-!
# Compiling documents

A document is a list of nodes and compiles to one test set, unless it declares no step.  Every test
keeps the configuration in effect where it was declared, so a configuration node changes nothing
that stands before it.  An imported file starts from the configuration of the document that imports
it and becomes a set of its own, which stands before the set of that document.

A compiler compiles an imported file once: it keeps the paths of the files it has come to, and
another node that imports one of them adds nothing.  Every import that is followed adds a path of
the tree, so the number of nodes in the tree bounds how deep imports can be nested.
-/

namespace HttpSuite

/-! ## The set of one document -/

/-- What a document has declared so far. -/
structure Draft where
  /-- The configuration in effect. -/
  config : Config
  steps : List Step := []
  /-- The configuration where the first step was declared. -/
  setConfig : Option Config := none
  /-- The sets of imported files. -/
  imported : List TestSet := []

namespace Draft

def addStep (step : Step) (d : Draft) : Draft :=
  { d with steps := d.steps ++ [step], setConfig := d.setConfig <|> some d.config }

/-- A configuration node after earlier steps is a step too, if it binds or declares anything. -/
def configure (r : Registry) (v : Value) (d : Draft) : Except CompileError Draft :=
  match d.config.merge r v with
  | (.error e, _) => .error e
  | (.ok change, config) =>
    let steps := if d.steps.isEmpty || change.isEmpty then d.steps
      else d.steps ++ [.configure change]
    .ok { d with config, steps }

def urlOf (v : Value) : Except CompileError String :=
  match v with
  | .string _ => .ok v.render
  | .number _ => .ok v.render
  | _ => .error (.malformedNode (.urlNotText v))

def operationOf (r : Registry) (v : Value) : Except CompileError Operation :=
  match v with
  | .object fields =>
    match (Entries.get? "type" fields).bind Value.string? with
    | some kind => r.declareOperation kind fields
    | none => .error (.invalid "operation" (.fieldRequired "type"))
  | _ => .error (.invalid "operation" .operationNotMapping)

/-- The draft with one more node that is no import. -/
def addNode (r : Registry) (key : String) (v : Value) (d : Draft) : Except CompileError Draft :=
  match key with
  | "config" | "configuration" => d.configure r v
  | "url" => do return d.addStep (.test (Test.ofUrl (← urlOf v)) d.config)
  | "test" => do return d.addStep (.test (← Test.compile r v) d.config)
  | "operation" => do return d.addStep (.operation (← operationOf r v))
  | _ => .error (.malformedNode (.unknownNode key))

/-- The imported sets and the document's own. -/
def sets (source : Option String) (d : Draft) : List TestSet :=
  match d.setConfig with
  | some config => d.imported ++ [⟨d.steps, config, source⟩]
  | none => d.imported

end Draft

/-! ## Imports -/

/-- Compiling with the paths of the files that have been come to. -/
abbrev CompileM := ExceptT CompileError (StateM (List String))

/-- How a document is compiled, given the directory its imports are seen from, its own file and the
configuration it starts from. -/
abbrev DocumentCompiler :=
  (document : Value) → (directory : String) → (source : Option String) → Config →
    CompileM (List TestSet)

namespace CompileM

def ofExcept {α : Type} (e : Except CompileError α) : CompileM α :=
  match e with
  | .ok a => pure a
  | .error e => throw e

/-- The path without detours; a fault names the path as it was given. -/
def canonicalPath (tree : FileTree) (path : String) : CompileM String :=
  match tree.canonicalPath path with
  | .ok path => pure path
  | .error fault => throw (.fileRead path fault.message)

/-- Compiles the document in a file. -/
def fileWith (inner : DocumentCompiler) (tree : FileTree) (path : String) (config : Config) :
    CompileM (List TestSet) := do
  inner (← ofExcept (tree.document path)) (Path.parent path) (some path) config

/-- Compiles the file of an import node, unless it has been come to before. -/
def importWith (inner : DocumentCompiler) (tree : FileTree) (directory : String) (v : Value)
    (config : Config) : CompileM (List TestSet) := do
  match v with
  | .string path =>
    let path ← canonicalPath tree (Path.join directory path)
    if (← get).contains path then return []
    modify (path :: ·)
    fileWith inner tree path config
  | _ => throw (.malformedNode (.importNotPath v))

/-- The draft with some more nodes, imports compiled by `import`. -/
def nodes (r : Registry) (importSets : Value → Config → CompileM (List TestSet)) :
    List Value → Draft → CompileM Draft
  | [], d => pure d
  | node :: rest, d => do
    let (key, v) ← ofExcept node.singleKey
    if key = "import" then
      let sets ← importSets v d.config
      nodes r importSets rest { d with imported := d.imported ++ sets }
    else nodes r importSets rest (← ofExcept (d.addNode r key v))

/-- Compiles a document whose imports are compiled by `inner`. -/
def documentWith (r : Registry) (tree : FileTree) (inner : DocumentCompiler) : DocumentCompiler :=
  fun document directory source config => do
    let list ← match document with
      | .array list => pure list
      | .null => pure []
      | v => throw (.malformedNode (.documentNotList v))
    let d ← nodes r (importWith inner tree directory) list ⟨config, [], none, []⟩
    return d.sets source

/-- Compiles a document in which imports are nested at most so deep. -/
def document (r : Registry) (tree : FileTree) : Nat → DocumentCompiler
  | 0 => documentWith r tree fun _ _ _ _ => pure []
  | depth + 1 => documentWith r tree (document r tree depth)

end CompileM

/-! ## Compilers -/

structure Compiler where
  registry : Registry
  /-- The variables bound before any document. -/
  bindings : Mapping := []
  /-- The paths of the files come to so far. -/
  visited : List String := []

namespace Compiler

/-- The configuration that documents start from. -/
def startConfig (c : Compiler) : Config := { variableBinds := c.bindings }

def run (c : Compiler) (m : CompileM (List TestSet)) :
    Except CompileError (List TestSet) × Compiler :=
  let (outcome, visited) := m.run.run c.visited
  (outcome, { c with visited })

/-- Compiles a document whose imports are seen from a directory. -/
def compile (c : Compiler) (tree : FileTree) (document : Value) (directory : String) :
    Except CompileError (List TestSet) × Compiler :=
  c.run (CompileM.document c.registry tree tree.size document directory none c.startConfig)

/-- Compiles the document in a file, which counts as come to. -/
def compileFile (c : Compiler) (tree : FileTree) (path : String) :
    Except CompileError (List TestSet) × Compiler :=
  c.run do
    let path ← CompileM.canonicalPath tree path
    modify fun visited => if visited.contains path then visited else path :: visited
    CompileM.fileWith (CompileM.document c.registry tree tree.size) tree path c.startConfig

end Compiler

end HttpSuite
