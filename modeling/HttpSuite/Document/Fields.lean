import HttpSuite.Document.Error
import HttpSuite.Text.Blank

/-!
# Fields of a document

Where a document has a mapping it may also have a list of mappings, which counts as one: of two
entries under one key the later one gives the value and the first one the place.
-/

namespace HttpSuite

/-- A template or marked template: `template: x` alone in a mapping stands for `x`. -/
def Value.unmark : Value → Value
  | .object [("template", v)] => v
  | v => v

/-- The key and value of a node, its key in small letters. -/
def Value.singleKey (node : Value) : Except CompileError (String × Value) :=
  match node with
  | .object [(key, v)] => .ok (lower key, v)
  | _ => .error (.malformedNode (.notSingleKey node))

namespace Fields

def entriesOf (part : String) (item : Value) : Except CompileError Mapping :=
  match item with
  | .object fields => .ok fields
  | _ => .error (.invalid part (.entryNotMapping item))

/-- The entries of a mapping or of a list of mappings in reading order. -/
def entries (v : Value) (part : String) : Except CompileError Mapping :=
  match v with
  | .object fields => .ok fields
  | .array items => do return (← items.mapM (entriesOf part)).flatten
  | .null => .ok []
  | _ => .error (.invalid part (.notMapping v))

/-- A mapping or a list of mappings as one mapping, keys as written. -/
def ofValue (v : Value) (part : String) : Except CompileError Mapping :=
  (entries v part).map Entries.ofList

/-- A mapping or a list of mappings as one mapping, keys in small letters. -/
def lowered (v : Value) (part : String) : Except CompileError Mapping :=
  (ofValue v part).map fun fields => Entries.ofList (fields.map fun f => (lower f.1, f.2))

end Fields

end HttpSuite
