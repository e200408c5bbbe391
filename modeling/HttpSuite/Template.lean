import HttpSuite.Text.Blank
import HttpSuite.Value.Text

/-!
# Templates

A reference is two opening braces, blanks, a name, blanks and two closing braces.  A name starts
with an ASCII letter or an underscore and goes on with letters, digits, underscores, points and
hyphens.  `Template.pieces` cuts a text into references and the characters between them, from left
to right, so that references never overlap.

`Template.resolve` replaces every reference in a value by what a lookup gives for its name.  A
string that is one reference, blanks around it aside, becomes the value itself; in any other string
the value is spliced in as text.  Keys of mappings are left alone.
-/

namespace HttpSuite.Template

/-- A part of a text: one character, or a reference by its name. -/
inductive Piece where
  | char (c : Char)
  | reference (name : String)
deriving DecidableEq

def isNameStart (c : Char) : Bool := c.isAlpha || c == '_'

def isNameChar (c : Char) : Bool := c.isAlphanum || c == '_' || c == '.' || c == '-'

def openBrace : Char := '\x7b'

def closeBrace : Char := '\x7d'

/-- What follows the two opening braces of a reference: its name and the rest of the text. -/
def closing? (cs : List Char) : Option (String × List Char) :=
  let cs := Text.trimStart cs
  let name := cs.takeWhile isNameChar
  match Text.trimStart (cs.dropWhile isNameChar) with
  | a :: b :: rest =>
    if a == closeBrace && b == closeBrace && name.head?.any isNameStart then
      some (String.ofList name, rest)
    else none
  | _ => none

/-- The reference at the start of a text: its name and the rest of the text. -/
def reference? : List Char → Option (String × List Char)
  | a :: b :: cs => if a == openBrace && b == openBrace then closing? cs else none
  | _ => none

theorem length_dropWhile_le {α : Type} (p : α → Bool) (l : List α) :
    (l.dropWhile p).length ≤ l.length :=
  (List.dropWhile_sublist p).length_le

theorem length_of_closing? {cs rest : List Char} {name : String}
    (h : closing? cs = some (name, rest)) : rest.length < cs.length := by
  have h₁ := length_dropWhile_le Text.isBlank cs
  have h₂ := length_dropWhile_le isNameChar (cs.dropWhile Text.isBlank)
  have h₃ := length_dropWhile_le Text.isBlank ((cs.dropWhile Text.isBlank).dropWhile isNameChar)
  simp only [closing?, Text.trimStart] at h
  split at h
  · rename_i a b r heq
    rw [heq] at h₃
    obtain ⟨_, h⟩ := Option.ite_none_right_eq_some.mp h
    simp only [Option.some.injEq, Prod.mk.injEq] at h
    obtain ⟨-, rfl⟩ := h
    simp only [List.length_cons] at h₃
    omega
  · simp at h

theorem length_of_reference? {cs rest : List Char} {name : String}
    (h : reference? cs = some (name, rest)) : rest.length < cs.length := by
  unfold reference? at h
  split at h
  · obtain ⟨_, h⟩ := Option.ite_none_right_eq_some.mp h
    have := length_of_closing? h
    simp only [List.length_cons]
    omega
  · simp at h

/-- The pieces of a text from left to right. -/
def pieces (cs : List Char) : List Piece :=
  match _h : reference? cs with
  | some (name, rest) => .reference name :: pieces rest
  | none =>
    match cs with
    | [] => []
    | c :: rest => .char c :: pieces rest
termination_by cs.length
decreasing_by
  · exact length_of_reference? _h
  · simp

/-- The name of a piece that is a reference. -/
def Piece.name? : Piece → Option String
  | .char _ => none
  | .reference name => some name

/-- Whether a text has a reference. -/
def isTemplate (s : String) : Bool := (pieces s.toList).any (·.name?.isSome)

/-- The name of a text that is one reference between blanks. -/
def lone? (s : String) : Option String :=
  match pieces (Text.trim s.toList) with
  | [.reference name] => some name
  | _ => none

/-! ## Names -/

/-- Appends a name that is not yet in the list. -/
def addName (names : List String) (name : String) : List String :=
  if name ∈ names then names else names ++ [name]

mutual

/-- The names referenced in a value, after those in `names`, in reading order and each once. -/
def namesFrom (names : List String) : Value → List String
  | .string s => (pieces s.toList).filterMap (·.name?) |>.foldl addName names
  | .array items => namesFromItems names items
  | .object fields => namesFromFields names fields
  | _ => names

def namesFromItems (names : List String) : List Value → List String
  | [] => names
  | v :: rest => namesFromItems (namesFrom names v) rest

def namesFromFields (names : List String) : List (String × Value) → List String
  | [] => names
  | (_, v) :: rest => namesFromFields (namesFrom names v) rest

end

/-- The names referenced in a value, in reading order and each once. -/
def names (v : Value) : List String := namesFrom [] v

/-! ## Resolution -/

section Resolve

variable {m : Type → Type} [Monad m] (lookup : String → m Value)

/-- The characters of the pieces, each reference replaced by its value as text. -/
def splice : List Piece → m (List Char)
  | [] => pure []
  | .char c :: rest => do return c :: (← splice rest)
  | .reference name :: rest => do
    let v ← lookup name
    return v.render.toList ++ (← splice rest)

/-- A string with its references replaced. -/
def resolveText (s : String) : m Value :=
  match lone? s with
  | some name => lookup name
  | none => do return .string (String.ofList (← splice lookup (pieces s.toList)))

mutual

/-- A value with its references replaced. -/
def resolve : Value → m Value
  | .string s => resolveText lookup s
  | .array items => do return .array (← resolveItems items)
  | .object fields => do return .object (← resolveFields fields)
  | v => pure v

def resolveItems : List Value → m (List Value)
  | [] => pure []
  | v :: rest => do
    let w ← resolve v
    return w :: (← resolveItems rest)

def resolveFields : List (String × Value) → m (List (String × Value))
  | [] => pure []
  | (key, v) :: rest => do
    let w ← resolve v
    return (key, w) :: (← resolveFields rest)

end

end Resolve

end HttpSuite.Template
