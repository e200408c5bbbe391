import HttpSuite.CommandLine.Settings
import HttpSuite.Run.Report
import HttpSuite.Settings.Suite

/-!
# The command

Reads the arguments, the settings and a suite, runs the suite and exits with the number of failures.
Files are looked for below the working directory.  No network is attached: every request fails as a
connection that is refused.
-/

namespace HttpSuite

namespace Command

/-- The nodes of some directory entries and those below them. -/
partial def nodesOf (entries : Array IO.FS.DirEntry) (location : List String) :
    IO (List (List String × FileNode)) := do
  let found ← entries.toList.mapM fun entry => do
    let location := location ++ [entry.fileName]
    if ← entry.path.isDir then
      return (location, FileNode.directory) :: (← nodesOf (← entry.path.readDir) location)
    else return [(location, FileNode.file (← IO.FS.readBinFile entry.path).toList)]
  return found.flatten

/-- The files below the working directory. -/
def fileTree : IO FileTree := do
  let root ← IO.currentDir
  return ⟨root.toString, ← nodesOf (← root.readDir) []⟩

/-- The variables of the environment, none where they cannot be listed. -/
def environment : IO Environment := do
  try
    let bytes ← IO.FS.readBinFile "/proc/self/environ"
    let entries := (Utf8.lossyText bytes.toList).splitOn "\x00"
    return entries.filterMap fun entry =>
      match entry.splitOn "=" with
      | name :: value => if name.isEmpty then none else some (name, "=".intercalate value)
      | [] => none
  catch _ => return []

/-- A transport without a network. -/
def detached : Transport Unit where
  name := "detached"
  send := fun _ _ s => (⟨0, .error (.connection "no network is attached")⟩, s)

def usage : String :=
  "Usage: resttest [OPTIONS] <TEST_FILE>\n\n" ++
    "Run declarative HTTP tests described in YAML or JSON files"

/-- The settings of the file, the environment and the arguments, each over the one before. -/
def settings (tree : FileTree) (env : Environment) (c : CommandLine) : Except String Settings := do
  let path? := match c.settingsFile with
    | some path => some (Path.join tree.root path)
    | none => Settings.discover tree tree.root
  let fromFile ← match path? with
    | some path => (Settings.load tree path).mapError fun e =>
        "Failed to load settings " ++ path ++ ": " ++ e.message
    | none => .ok {}
  let fromEnvironment ← (Settings.ofEnvironment env).mapError fun e =>
    "Invalid RESTTEST_* environment settings: " ++ e.message
  return (fromFile.merge fromEnvironment).merge c.settings

/-- The report of a suite, unless the run breaks off, and what it has told. -/
def run (tree : FileTree) (env : Environment) (c : CommandLine) :
    Except String (Except Break Report × List Event) := do
  let s ← settings tree env c
  let s := { s with extensionDirectory := s.extensionDirectory.map (Path.join tree.root) }
  let r ← (s.registry tree).mapError fun e => "Failed to load extensions: " ++ e.message
  let path := c.testPath.getD ""
  let sets ← (s.compileSuite r tree (Path.join tree.root path)).mapError fun e =>
    "Failed to compile " ++ path ++ ": " ++ e.message
  let options : RunOptions :=
    { concurrent := s.concurrentTestSets.getD false, skipTermColors := s.skipTermColors }
  let (report, w) := options.run detached env sets (World.start ())
  return (report, w.events)

def breakMessage : Break → String
  | .counter => "the number of failed attempts does not fit its counter"
  | .pause => "the next pause between two attempts is no duration"

def tell (event : Event) : IO Unit :=
  match event with
  | .noted (.line text) _ => IO.println text
  | .noted (.log _ text) _ => IO.eprintln text
  | _ => pure ()

end Command

end HttpSuite

open HttpSuite in
/-- Exits with the number of failures, with 2 after a wrong command line and with 101 after a run
that broke off. -/
def main (args : List String) : IO UInt32 := do
  match CommandLine.ofList args with
  | .error (.usage .help) => IO.println Command.usage; return 0
  | .error (.usage .version) => IO.println "resttest 0.1.0"; return 0
  | .error (.usage _) => IO.eprintln Command.usage; return 2
  | .error (.settings e) =>
    IO.eprintln ("❌ Invalid command line arguments: " ++ e.message)
    return 1
  | .ok c =>
    match Command.run (← Command.fileTree) (← Command.environment) c with
    | .error message =>
      IO.eprintln ("❌ " ++ message)
      return 1
    | .ok (report, events) =>
      events.forM Command.tell
      match report with
      | .ok report => return report.exitCode.toUInt32
      | .error b =>
        IO.eprintln (Command.breakMessage b)
        return 101
