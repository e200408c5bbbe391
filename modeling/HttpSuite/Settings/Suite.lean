import HttpSuite.Extension.Load
import HttpSuite.Settings.Reader
import HttpSuite.Suite.Compile

/-!
# Suites under settings
-/

namespace HttpSuite

/-- Why a suite cannot be run. -/
inductive SuiteError where
  | settings (cause : SettingsError)
  | compile (cause : CompileError)

def SuiteError.message : SuiteError → String
  | settings cause => "Settings error: " ++ cause.message
  | compile cause => "Compile error: " ++ cause.message

namespace Settings

/-- The built-in kinds and those that the extensions of the settings declare. -/
def registry (s : Settings) (tree : FileTree) : Except SuiteError Registry :=
  match s.extensionDirectory with
  | some directory => (Extension.load tree directory Registry.builtins).mapError .settings
  | none => .ok Registry.builtins

/-- The test sets of a file, with the variables of the settings and under their flags. -/
def compileSuite (s : Settings) (r : Registry) (tree : FileTree) (path : String) :
    Except SuiteError (List TestSet) := do
  let compiler : Compiler := { registry := r, bindings := s.initialVariables }
  let sets ← (compiler.compileFile tree path).1.mapError .compile
  (s.applyToSets sets).mapError .compile

end Settings

end HttpSuite
