import HttpSuite.Document.Reader
import HttpSuite.Settings.Basic
import HttpSuite.Settings.Error

/-!
# Reading settings

Settings are read from a YAML or JSON file, from environment variables and from a text of variables.
A file holds fields by name, or the values of the first fields in order; `null` leaves a field unset
and an unknown field is an error.
-/

namespace HttpSuite

namespace Settings

/-! ## Fields -/

private def flag? : Value → Option (Option Bool)
  | .null => some none
  | .bool b => some (some b)
  | _ => none

private def text? : Value → Option (Option String)
  | .null => some none
  | .string s => some (some s)
  | _ => none

private def seconds? : Value → Option (Option Seconds)
  | .null => some none
  | .number n => some (some (.finite n.toBinary64))
  | _ => none

private def count? : Value → Option (Option Nat)
  | .null => some none
  | .number (.int i) => if 0 ≤ i ∧ i < Nat.pow 2 32 then some (some i.toNat) else none
  | _ => none

private def mapping? : Value → Option (Option Mapping)
  | .null => some none
  | .object fields => some (some fields)
  | _ => none

/-- The names of the fields in order. -/
def fieldNames : List String := [
  "print_bodies", "print_headers", "ssl_insecure", "verbose", "skip_term_colors", "interactive",
  "timeout_secs", "retries", "default_base_url", "ext_dir", "log_level", "concurrent_testsets",
  "vars"]

/-- The settings with one more field. -/
def setField? (s : Settings) (name : String) (v : Value) : Option Settings :=
  match name with
  | "print_bodies" => do return { s with printBodies := ← flag? v }
  | "print_headers" => do return { s with printHeaders := ← flag? v }
  | "ssl_insecure" => do return { s with sslInsecure := ← flag? v }
  | "verbose" => do return { s with verbose := ← flag? v }
  | "skip_term_colors" => do return { s with skipTermColors := ← flag? v }
  | "interactive" => do return { s with interactive := ← flag? v }
  | "timeout_secs" => do return { s with timeout := ← seconds? v }
  | "retries" => do return { s with retries := ← count? v }
  | "default_base_url" => do return { s with defaultBaseUrl := ← text? v }
  | "ext_dir" => do return { s with extensionDirectory := ← text? v }
  | "log_level" => do return { s with logLevel := ← text? v }
  | "concurrent_testsets" => do return { s with concurrentTestSets := ← flag? v }
  | "vars" => do return { s with bindings := ← mapping? v }
  | _ => none

/-- The settings with some fields, each of them given once. -/
def ofFields? (fields : Mapping) : Option Settings :=
  if (Entries.keys fields).Nodup then
    fields.foldlM (fun s (name, v) => s.setField? name v) {}
  else none

/-- The settings with named fields, or with the first fields in order. -/
def ofParts? : Mapping ⊕ List Value → Option Settings
  | .inl fields => ofFields? fields
  | .inr items =>
    if items.length ≤ fieldNames.length then ofFields? (fieldNames.zip items) else none

def ofValue? : Value → Option Settings
  | .object fields => ofParts? (.inl fields)
  | .array items => ofParts? (.inr items)
  | _ => none

/-! ## Files -/

/-- The settings in a file, whose format follows its name. -/
def load (tree : FileTree) (path : String) : Except SettingsError Settings :=
  if !tree.isThere path then .error (.notFound path)
  else match tree.read path with
    | .error fault => .error (.unreadable fault)
    | .ok text =>
      let malformed := Except.error (.invalid (.malformed (some path)))
      match Path.extension? path with
      | some "yaml" | some "yml" =>
        match Value.ofDocumentText? text with
        | none => .error (.invalid (.malformed none))
        | some v => ((ofValue? v).map Except.ok).getD malformed
      | some "json" => (((Json.parts? text).bind ofParts?).map Except.ok).getD malformed
      | _ => .error (.invalid (.unsupportedFormat path))

/-- The names of settings files, in the order in which they are looked for. -/
def defaultFiles : List String := ["resttest.yaml", "resttest.yml", "resttest.json"]

/-- The settings file of a directory, if it has one. -/
def discover (tree : FileTree) (directory : String) : Option String :=
  (defaultFiles.map (Path.join directory)).find? tree.isFile

/-! ## Variables and the environment -/

/-- The variables in a YAML text. -/
def variablesOf (text : String) : Except SettingsError Mapping :=
  match Value.ofDocumentText? text with
  | none => .error (.invalid (.malformed none))
  | some (.object fields) => .ok fields
  | some (.array []) => .ok []
  | some v => .error (.invalid (.variablesNotMapping v))

/-- How the names of environment variables for settings begin. -/
def environmentPrefix : String := "RESTTEST_"

private def orBad {α : Type} (key value : String) (a : Option α) : Except SettingsError α :=
  match a with
  | some a => .ok a
  | none => .error (.invalid (.badValue value key))

private def switch? (s : String) : Option Bool :=
  if ["1", "true", "yes", "on"].contains (lower s) then some true
  else if ["0", "false", "no", "off"].contains (lower s) then some false
  else none

/-- The settings with what one environment variable sets; a variable of another name sets nothing.
-/
def setFromEnvironment (s : Settings) (key value : String) : Except SettingsError Settings :=
  if !key.startsWith environmentPrefix then .ok s
  else
    let flag (set : Bool → Settings) : Except SettingsError Settings :=
      (orBad key value (switch? value)).map set
    match (key.drop environmentPrefix.length).toString with
    | "PRINT_BODIES" => flag fun b => { s with printBodies := b }
    | "PRINT_HEADERS" => flag fun b => { s with printHeaders := b }
    | "SSL_INSECURE" => flag fun b => { s with sslInsecure := b }
    | "VERBOSE" => flag fun b => { s with verbose := b }
    | "SKIP_TERM_COLORS" => flag fun b => { s with skipTermColors := b }
    | "INTERACTIVE" => flag fun b => { s with interactive := b }
    | "CONCURRENT_TESTSETS" => flag fun b => { s with concurrentTestSets := b }
    | "TIMEOUT" => do return { s with timeout := ← orBad key value (Seconds.ofText? value) }
    | "RETRIES" => do
      return { s with retries := ← orBad key value (Text.unsignedBelow? (Nat.pow 2 32) value) }
    | "DEFAULT_BASE_URL" => .ok { s with defaultBaseUrl := value }
    | "EXT_DIR" => .ok { s with extensionDirectory := value }
    | "LOG" => .ok { s with logLevel := value }
    | "VARS" => do return { s with bindings := ← variablesOf value }
    | _ => .ok s

/-- The settings of an environment. -/
def ofEnvironment (env : List (String × String)) : Except SettingsError Settings :=
  env.foldlM (fun s (key, value) => s.setFromEnvironment key value) {}

end Settings

end HttpSuite
