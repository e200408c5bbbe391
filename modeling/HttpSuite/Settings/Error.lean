import HttpSuite.Files.Tree
import HttpSuite.Value.Text

/-!
# What is wrong with settings and extensions
-/

namespace HttpSuite

/-- What is wrong with settings, wherever they come from. -/
inductive SettingsFault where
  | unsupportedFormat (path : String)
  | variablesNotMapping (got : Value)
  | badValue (value key : String)
  /-- A text that is no settings, with its file if it comes from one. -/
  | malformed (path : Option String)

def SettingsFault.message : SettingsFault → String
  | unsupportedFormat path => "Unsupported settings file format: " ++ path
  | variablesNotMapping got => "variables must be a mapping, got " ++ got.toText
  | badValue value key => "invalid value '" ++ value ++ "' for " ++ key
  | malformed path => (path.map (· ++ ": ")).getD "" ++ "the text is malformed"

/-- What is wrong with a manifest of extensions. -/
inductive ManifestFault where
  | empty
  | notMapping (name : String)
  | typeRequired (name : String)
  | unknownBase (kind name base : String)
  | malformed

def ManifestFault.message : ManifestFault → String
  | empty => "manifest declares no validators, extractors, generators or operations"
  | notMapping name => "'" ++ name ++ "' must be a mapping"
  | typeRequired name => "'" ++ name ++ "' needs a string 'type'"
  | unknownBase kind name base =>
    kind ++ " '" ++ name ++ "' refers to unknown " ++ kind ++ " type '" ++ base ++ "'"
  | malformed => "the text is malformed"

/-- Why settings or extensions cannot be loaded. -/
inductive SettingsError where
  | notFound (path : String)
  | invalid (fault : SettingsFault)
  | invalidManifest (path : String) (fault : ManifestFault)
  | unreadable (fault : FileFault)

def SettingsError.message : SettingsError → String
  | notFound path => "Settings file not found: " ++ path
  | invalid fault => "Invalid settings format: " ++ fault.message
  | invalidManifest path fault => "Invalid extension manifest " ++ path ++ ": " ++ fault.message
  | unreadable fault => "IO error: " ++ fault.message

end HttpSuite
