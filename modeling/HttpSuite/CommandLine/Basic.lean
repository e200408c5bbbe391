/-!
# Command lines

A command line is a list of arguments: flags, options with a value, which follows an equals sign or
is the next argument, and the test file.  After two dashes every argument is a test file.
-/

namespace HttpSuite

/-- What a command line may hold. -/
inductive Argument where
  | file
  | test
  | vars
  | printBodies
  | printHeaders
  | log
  | verbose
  | sslInsecure
  | interactive
  | skipTermColors
  | extDir
  | defaultBaseUrl
  | settings
  | concurrentTestSets
  | help
  | version
deriving DecidableEq

/-- Why a command line is refused, or answered by a text. -/
inductive UsageError where
  | unknownArgument
  | invalidValue
  | missingArgument
  | conflict
  | tooManyValues
  | help
  | version

namespace Argument

def ofLong? : String → Option Argument
  | "test" => some test
  | "vars" => some vars
  | "print-bodies" => some printBodies
  | "print-headers" => some printHeaders
  | "log" => some log
  | "verbose" => some verbose
  | "ssl-insecure" => some sslInsecure
  | "interactive" => some interactive
  | "skip-term-colors" => some skipTermColors
  | "skip_term_colors" => some skipTermColors
  | "ext-dir" => some extDir
  | "import_extensions" => some extDir
  | "default-base-url" => some defaultBaseUrl
  | "settings" => some settings
  | "concurrent-testsets" => some concurrentTestSets
  | "help" => some help
  | "version" => some version
  | _ => none

def ofShort? : Char → Option Argument
  | 'h' => some help
  | 'V' => some version
  | _ => none

/-- Whether an argument has a value of its own. -/
def takesValue : Argument → Bool
  | file | test | vars | log | extDir | defaultBaseUrl | settings => true
  | _ => false

/-- Whether the value is a path, which is not empty. -/
def isPath : Argument → Bool
  | file | test | extDir | settings => true
  | _ => false

end Argument

/-- The arguments that have been read. -/
structure Arguments where
  given : List (Argument × String) := []
  /-- An argument whose values, if it has any yet, are still to be taken. -/
  pending : Option (Argument × List String) := none

namespace Arguments

def has (a : Arguments) (x : Argument) : Bool := a.given.any (·.1 == x)

def value? (a : Arguments) (x : Argument) : Option String :=
  (a.given.find? (·.1 == x)).map (·.2)

/-- Takes an argument with its values.  It has one value if it takes any, and is given once. -/
def take (x : Argument) (values : List String) (a : Arguments) : Except UsageError Arguments :=
  match x with
  | .help => .error .help
  | .version => .error .version
  | x =>
    if x.takesValue && values.isEmpty then .error .invalidValue
    else if a.has x then .error .conflict
    else
      let value := values.headD ""
      if x.isPath && value.isEmpty then .error .invalidValue
      else .ok { a with given := a.given ++ [(x, value)] }

/-- Takes the argument that is pending. -/
def settle (a : Arguments) : Except UsageError Arguments :=
  match a.pending with
  | none => .ok a
  | some (x, values) => take x values { a with pending := none }

/-- A flag, or an option with its value. -/
def takeNow (x : Argument) (values : List String) (a : Arguments) :
    Except UsageError Arguments := do
  (← a.settle).take x values

/-- An argument that begins with two dashes; a value may follow an equals sign. -/
def readLong (text : String) (a : Arguments) : Except UsageError Arguments :=
  let name := (text.splitOn "=").headD ""
  let attached := if text = name then none else some (text.drop (name.length + 1)).toString
  match Argument.ofLong? name with
  | none => .error .unknownArgument
  | some x =>
    if !x.takesValue then
      if attached.isSome then .error .tooManyValues else a.takeNow x []
    else match attached with
      | some value => a.takeNow x [value]
      | none => do return { ← a.settle with pending := some (x, []) }

/-- The letters after a single dash. -/
def readShort : List Char → Arguments → Except UsageError Arguments
  | [], a => .ok a
  | c :: cs, a =>
    match Argument.ofShort? c with
    | none => .error .unknownArgument
    | some x => do readShort cs (← a.takeNow x [])

/-- A test file; there is one. -/
def readFile (text : String) (a : Arguments) : Except UsageError Arguments :=
  if a.has .file || (a.pending.map (·.1)) == some .file then .error .unknownArgument
  else do return { ← a.settle with pending := some (.file, [text]) }

/-- Whether the next argument is the value of an option. -/
def awaitsValue (a : Arguments) : Bool := a.pending.any fun p => p.1 != .file && p.2.isEmpty

/-- Reads arguments in order.  After two dashes all of them are files. -/
def read : List String → Arguments → Except UsageError Arguments
  | [], a => a.settle
  | text :: rest, a =>
    match text.toList with
    | ['-', '-'] => do (← rest.foldlM (fun a text => a.readFile text) a).settle
    | '-' :: '-' :: _ => do read rest (← a.readLong (text.drop 2).toString)
    | '-' :: c :: cs => do read rest (← a.readShort (c :: cs))
    | _ =>
      if a.awaitsValue then
        match a.pending with
        | some (x, _) => read rest { a with pending := some (x, [text]) }
        | none => read rest a
      else do read rest (← a.readFile text)

/-- Reads a command line.  It names one test file. -/
def ofList (texts : List String) : Except UsageError Arguments := do
  let a ← read texts {}
  if a.has .test && a.has .file then throw .conflict
  if !a.has .test && !a.has .file then throw .missingArgument
  return a

end Arguments

end HttpSuite
