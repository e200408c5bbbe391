import HttpSuite.Document.Error
import HttpSuite.Number.Binary64
import HttpSuite.Suite.Merge
import HttpSuite.Suite.TestSet
import HttpSuite.Text.Decimal

/-!
# Settings of a run

Settings come in layers: a file, the environment and the command line.  A layer sets some fields; in
a merge the later layer wins field by field, and variables are merged as mappings.
-/

namespace HttpSuite

/-- A number of seconds as it is given. -/
inductive Seconds where
  | finite (x : Binary64)
  | infinite (negative : Bool)
  | undefined

/-- The number of seconds that a text spells. -/
def Seconds.ofText? (s : String) : Option Seconds :=
  let (negative, word) := match s.toList with
    | '-' :: cs => (true, cs)
    | '+' :: cs => (false, cs)
    | cs => (false, cs)
  let word := lower (String.ofList word)
  if word = "inf" ∨ word = "infinity" then some (.infinite negative)
  else if word = "nan" then some .undefined
  else (Text.decimal? s).map fun d =>
    ((Binary64.ofDecimal? d.negative d.digits d.exponent).map Seconds.finite).getD
      (.infinite d.negative)

structure Settings where
  printBodies : Option Bool := none
  printHeaders : Option Bool := none
  sslInsecure : Option Bool := none
  verbose : Option Bool := none
  skipTermColors : Option Bool := none
  interactive : Option Bool := none
  timeout : Option Seconds := none
  retries : Option Nat := none
  defaultBaseUrl : Option String := none
  extensionDirectory : Option String := none
  logLevel : Option String := none
  concurrentTestSets : Option Bool := none
  bindings : Option Mapping := none

namespace Settings

/-- The variables of a layer over those of the layers below. -/
def mergeVariables : Option Mapping → Option Mapping → Option Mapping
  | some base, some new => some (Mapping.merge base new)
  | base, new => new <|> base

/-- A layer over those below it. -/
def merge (s layer : Settings) : Settings where
  printBodies := layer.printBodies <|> s.printBodies
  printHeaders := layer.printHeaders <|> s.printHeaders
  sslInsecure := layer.sslInsecure <|> s.sslInsecure
  verbose := layer.verbose <|> s.verbose
  skipTermColors := layer.skipTermColors <|> s.skipTermColors
  interactive := layer.interactive <|> s.interactive
  timeout := layer.timeout <|> s.timeout
  retries := layer.retries <|> s.retries
  defaultBaseUrl := layer.defaultBaseUrl <|> s.defaultBaseUrl
  extensionDirectory := layer.extensionDirectory <|> s.extensionDirectory
  logLevel := layer.logLevel <|> s.logLevel
  concurrentTestSets := layer.concurrentTestSets <|> s.concurrentTestSets
  bindings := mergeVariables s.bindings layer.bindings

/-- The variables that are bound before any document. -/
def initialVariables (s : Settings) : Mapping :=
  let bindings := s.bindings.getD []
  match s.defaultBaseUrl with
  | some url => Entries.insert Test.baseUrlVariable (.string url) bindings
  | none => bindings

/-! ## Forcing settings on configurations -/

/-- The timeout that is forced, if the seconds are finite and positive. -/
def forcedTimeout (s : Settings) : Except CompileError (Option Duration) :=
  match s.timeout with
  | some (.finite x) =>
    if x.negative ∨ x.isZero then .ok none
    else (Duration.ofSeconds x).map some
  | _ => .ok none

/-- A configuration under the settings.  Most flags can only be switched on. -/
def force (s : Settings) (timeout : Option Duration) (c : Config) : Config :=
  { c with
    printBodies := c.printBodies || s.printBodies == some true
    printHeaders := c.printHeaders || s.printHeaders == some true
    sslInsecure := c.sslInsecure || s.sslInsecure == some true
    verbose := c.verbose || s.verbose == some true
    interactive := c.interactive || s.interactive == some true
    skipTermColors := s.skipTermColors.getD c.skipTermColors
    timeout := timeout.getD c.timeout
    retries := s.retries.getD c.retries }

/-- Forces the settings on a configuration. -/
def applyTo (s : Settings) (c : Config) : Except CompileError Config := do
  return s.force (← s.forcedTimeout) c

/-- Forces the settings on every configuration of some test sets. -/
def applyToSets (s : Settings) (sets : List TestSet) : Except CompileError (List TestSet) :=
  sets.mapM (TestSet.updateConfigs s.applyTo)

end Settings

end HttpSuite
