import HttpSuite.Context
import HttpSuite.Proofs.Entries

/-!
# What contexts are made of

A context is its environment, its variables and its generators, and everything that is done to one
touches one of the three: binding touches the variables, starting or pulling a generator touches the
generators, and nothing touches the environment.
-/

namespace HttpSuite.Context

variable {c : Context}

theorem get?_bind (name k : String) (v : Value) :
    (c.bind name v).get? k = if name = k then some v else c.get? k :=
  Entries.get?_insert name k v c.bindings

/-! ## Many variables -/

@[simp] theorem bindings_bindAll (c : Context) (binds : Mapping) :
    (c.bindAll binds).bindings = Entries.insertAll c.bindings binds := by
  induction binds generalizing c with
  | nil => rfl
  | cons e rest ih => exact ih (c.bind e.1 e.2)

@[simp] theorem generators_bindAll (c : Context) (binds : Mapping) :
    (c.bindAll binds).generators = c.generators := by
  induction binds generalizing c with
  | nil => rfl
  | cons e rest ih => exact ih (c.bind e.1 e.2)

@[simp] theorem environment_bindAll (c : Context) (binds : Mapping) :
    (c.bindAll binds).environment = c.environment := by
  induction binds generalizing c with
  | nil => rfl
  | cons e rest ih => exact ih (c.bind e.1 e.2)

/-! ## Generators -/

/-- Pulling a generator that there is. -/
theorem next_eq {name : String} {stream : Stream}
    (h : Entries.get? name c.generators = some stream) :
    c.next name = ((stream.pull c.environment).1,
      { c with generators := Entries.insert name (stream.pull c.environment).2 c.generators }) := by
  rw [next, h]

theorem exists_stream {name : String} (h : c.hasGenerator name = true) :
    ∃ stream, Entries.get? name c.generators = some stream :=
  Option.isSome_iff_exists.mp h

@[simp] theorem bindings_addGenerators (c : Context) (gs : List (String × Generator)) :
    (c.addGenerators gs).bindings = c.bindings := by
  induction gs generalizing c with
  | nil => rfl
  | cons e rest ih => exact ih (c.addGenerator e.1 e.2)

@[simp] theorem environment_addGenerators (c : Context) (gs : List (String × Generator)) :
    (c.addGenerators gs).environment = c.environment := by
  induction gs generalizing c with
  | nil => rfl
  | cons e rest ih => exact ih (c.addGenerator e.1 e.2)

@[simp] theorem generators_addGenerators (c : Context) (gs : List (String × Generator)) :
    (c.addGenerators gs).generators =
      Entries.insertAll c.generators (gs.map fun e => (e.1, e.2.start)) := by
  induction gs generalizing c with
  | nil => rfl
  | cons e rest ih => exact ih (c.addGenerator e.1 e.2)

end HttpSuite.Context
