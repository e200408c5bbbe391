import HttpSuite.CommandLine.Basic
import HttpSuite.Settings.Reader

/-!
# The settings of a command line
-/

namespace HttpSuite

/-- A command line: the test file, the file of settings if it is given, and the layer of settings
that the other arguments make. -/
structure CommandLine where
  testPath : Option String
  settingsFile : Option String
  settings : Settings

/-- Why a command line gives no settings. -/
inductive CommandLineError where
  | usage (cause : UsageError)
  | settings (cause : SettingsError)

namespace CommandLine

/-- The layer of settings that arguments make; a flag that is not given leaves its field unset. -/
def settingsOf (a : Arguments) : Except SettingsError Settings := do
  let flag (x : Argument) : Option Bool := if a.has x then some true else none
  let bindings ← match a.value? .vars with
    | some text => (Settings.variablesOf text).map some
    | none => .ok none
  return {
    printBodies := flag .printBodies
    printHeaders := flag .printHeaders
    sslInsecure := flag .sslInsecure
    verbose := flag .verbose
    skipTermColors := flag .skipTermColors
    interactive := flag .interactive
    concurrentTestSets := flag .concurrentTestSets
    defaultBaseUrl := a.value? .defaultBaseUrl
    extensionDirectory := a.value? .extDir
    logLevel := a.value? .log
    bindings }

def ofList (texts : List String) : Except CommandLineError CommandLine := do
  let a ← (Arguments.ofList texts).mapError .usage
  return {
    testPath := a.value? .test <|> a.value? .file
    settingsFile := a.value? .settings
    settings := ← (settingsOf a).mapError .settings }

end CommandLine

end HttpSuite
