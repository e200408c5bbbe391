import HttpSuite.Document.Error
import HttpSuite.Files.Tree
import HttpSuite.Text.Blank
import HttpSuite.Value.Reader
import HttpSuite.Yaml.Reader

/-!
# Reading documents

A document is a JSON text in a file whose name ends so, and a YAML text in any other file.  A YAML
text of blanks only is an empty list.
-/

namespace HttpSuite

/-- The value of a YAML text; that of blanks only is an empty list. -/
def Value.ofDocumentText? (text : String) : Option Value :=
  if isBlankText text then some (.array []) else Value.ofYaml? text

/-- The document in a file. -/
def FileTree.document (tree : FileTree) (path : String) : Except CompileError Value :=
  match tree.read path with
  | .error fault => .error (.fileRead path fault.message)
  | .ok text =>
    let value? := if Path.extension? path = some "json" then Value.ofJson? text
      else Value.ofDocumentText? text
    match value? with
    | some v => .ok v
    | none => .error (.fileParse path "the text is malformed")

end HttpSuite
