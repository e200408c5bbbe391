import HttpSuite.Files.Path
import HttpSuite.Text.Utf8

/-!
# File trees

A tree holds files and directories below a root directory.  Every existing path leads to one list of
names, its location, so two spellings of a path are the same file exactly if their locations are
equal.  A path that leads out of the tree leads nowhere.
-/

namespace HttpSuite

inductive FileNode where
  | file (bytes : List UInt8)
  | directory

/-- Why a path cannot be followed or read. -/
inductive FileFault where
  | missing
  | notDirectory
  | isDirectory
  | nameTooLong
  | zeroInName
  | notText

def FileFault.message : FileFault → String
  | missing => "No such file or directory (os error 2)"
  | notDirectory => "Not a directory (os error 20)"
  | isDirectory => "Is a directory (os error 21)"
  | nameTooLong => "File name too long (os error 36)"
  | zeroInName => "file name contained an unexpected NUL byte"
  | notText => "stream did not contain valid UTF-8"

structure FileTree where
  /-- The path of the root directory. -/
  root : String
  /-- The nodes below the root, each with the names that lead to it. -/
  nodes : List (List String × FileNode)

namespace FileTree

def empty (root : String) : FileTree := ⟨root, []⟩

/-- The node at a location; the root is a directory. -/
def node? (tree : FileTree) (location : List String) : Option FileNode :=
  if location.isEmpty then some .directory else (tree.nodes.find? (·.1 == location)).map (·.2)

/-- The tree with a node and the directories that lead to it, unless they are there already. -/
def insert (location : List String) (node : FileNode) (tree : FileTree) : FileTree :=
  let above := (List.range location.length).drop 1 |>.map (location.take ·)
  let missing := above.filter fun l => !(tree.nodes.any (·.1 == l))
  { tree with
    nodes := tree.nodes.filter (·.1 != location) ++ missing.map (·, .directory) ++
      [(location, node)] }

/-! ## Following paths -/

/-- Follows the parts of a path from a location.  Only a directory has parts below it, and an empty
part or one of one dot asks for a directory. -/
def follow (tree : FileTree) (location : List String) : List String → Except FileFault (List String)
  | [] => .ok location
  | part :: rest =>
    match tree.node? location with
    | some .directory =>
      if part = "" ∨ part = "." then follow tree location rest
      else if 255 < part.utf8ByteSize then .error .nameTooLong
      else if part = ".." then
        if location.isEmpty then .error .missing else follow tree location.dropLast rest
      else
        let next := location ++ [part]
        if (tree.node? next).isSome then follow tree next rest else .error .missing
    | _ => .error .notDirectory

/-- The location that a path leads to. -/
def locate (tree : FileTree) (path : String) : Except FileFault (List String) :=
  if path.toList.contains '\x00' then .error .zeroInName
  else if 4095 < path.utf8ByteSize then .error .nameTooLong
  else if path = tree.root then .ok []
  else if path.startsWith (tree.root ++ "/") then
    tree.follow [] (Path.pieces '/' (path.drop (tree.root.length + 1)).toString)
  else .error .missing

/-- The path of a location without detours. -/
def pathOf (tree : FileTree) (location : List String) : String :=
  "/".intercalate (tree.root :: location)

/-- The path without detours that leads to the same place. -/
def canonicalPath (tree : FileTree) (path : String) : Except FileFault String :=
  (tree.locate path).map tree.pathOf

/-! ## Looking at nodes -/

def isFile (tree : FileTree) (path : String) : Bool :=
  match tree.locate path with
  | .ok location =>
    match tree.node? location with
    | some (.file _) => true
    | _ => false
  | .error _ => false

def isDirectory (tree : FileTree) (path : String) : Bool :=
  match tree.locate path with
  | .ok location =>
    match tree.node? location with
    | some .directory => true
    | _ => false
  | .error _ => false

def isThere (tree : FileTree) (path : String) : Bool := (tree.locate path).isOk

/-- The text of a file. -/
def read (tree : FileTree) (path : String) : Except FileFault String := do
  match tree.node? (← tree.locate path) with
  | some (.file bytes) =>
    match Utf8.text? bytes with
    | some text => return text
    | none => throw .notText
  | some .directory => throw .isDirectory
  | none => throw .missing

/-- The names of the files in a directory in order. -/
def filesIn (tree : FileTree) (location : List String) : List String :=
  let names := tree.nodes.filterMap fun (l, node) =>
    match node with
    | .file _ => if l.dropLast == location then l.getLast? else none
    | .directory => none
  names.mergeSort (fun a b => a ≤ b)

/-- The number of nodes, which bounds the number of files. -/
def size (tree : FileTree) : Nat := tree.nodes.length

end FileTree

end HttpSuite
