import HttpSuite.Settings.Error
import HttpSuite.Text.Blank
import HttpSuite.Value.Reader
import HttpSuite.Yaml.Reader

/-!
# Manifests of extensions

A manifest declares new names for kinds, in a section for each sort of kind.  A declaration gives
the kind that a name stands for and a preset: the field `config` if there is one, and otherwise all
the fields but the kind.
-/

namespace HttpSuite

structure Manifest where
  validators : Mapping := []
  extractors : Mapping := []
  generators : Mapping := []
  operations : Mapping := []

/-- A name, the name of the kind it stands for, and the preset. -/
structure Declaration where
  name : String
  base : String
  preset : Value

namespace Declaration

/-- The declaration in a field of a section. -/
def ofField (name : String) (v : Value) : Except ManifestFault Declaration :=
  match v with
  | .object fields =>
    match Entries.get? "type" fields with
    | some (.string base) =>
      let fields := Entries.swapErase "type" fields
      let preset := (Entries.get? "config" fields).getD (.object fields)
      .ok ⟨lower name, lower base, preset⟩
    | _ => .error (.typeRequired name)
  | _ => .error (.notMapping name)

/-- The declarations of a section, or the first fault in it. -/
def ofSection (fields : Mapping) : Except ManifestFault (List Declaration) :=
  fields.mapM fun (name, v) => ofField name v

end Declaration

namespace Manifest

def isEmpty (m : Manifest) : Bool :=
  m.validators.isEmpty && m.extractors.isEmpty && m.generators.isEmpty && m.operations.isEmpty

/-- The names of the sections in order. -/
def sectionNames : List String := ["validators", "extractors", "generators", "operations"]

/-- The manifest with some sections, each of them given once. -/
def ofSections? (sections : List (String × Mapping)) : Option Manifest :=
  if (Entries.keys sections).Nodup ∧ (Entries.keys sections).all sectionNames.contains then
    let given (name : String) : Mapping := (Entries.get? name sections).getD []
    some ⟨given "validators", given "extractors", given "generators", given "operations"⟩
  else none

/-- The manifest with named sections, or with sections in order. -/
def ofParts? : List (String × Mapping) ⊕ List Mapping → Option Manifest
  | .inl sections => ofSections? sections
  | .inr items =>
    if items.length ≤ sectionNames.length then ofSections? (sectionNames.zip items) else none

def ofYaml? (text : String) : Option Manifest := do
  let doc ← Yaml.Document.ofText? text
  let parts ← doc.read? (.inl []) fun anchored => Yaml.Document.parts anchored Yaml.maxDepth
  ofParts? parts

def ofJson? (text : String) : Option Manifest := do
  match ← Json.parts? text with
  | .inl fields => ofParts? (.inl (← fields.mapM fun (name, v) => v.object?.map (name, ·)))
  | .inr items => ofParts? (.inr (← items.mapM Value.object?))

end Manifest

end HttpSuite
