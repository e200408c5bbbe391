import HttpSuite.Context
import HttpSuite.Proofs.Entries
import Mathlib.Data.List.TakeWhile

/-!
# What a template looks up

A value is resolved reference by reference, in reading order: `Template.references` are their names,
as often as they occur.  `Template.resolve_paired` is the one induction over a value that a
statement about its references needs.  It compares two ways of looking names up, and says that
whatever relates them name by name, is there for `pure` and is kept by `bind`, relates the two ways
of resolving the value, at its references.

The names that `Template.names` collects are the references, each once (`Template.mem_names`).  That
it looks at the whole text makes no difference to a text that is one reference between blanks, for
blanks are no part of a reference (`Template.references_of_lone`).
-/

namespace HttpSuite.Template

/-! ## Pieces between blanks -/

theorem ne_openBrace_of_isBlank {c : Char} (h : Text.isBlank c = true) : c ≠ openBrace := by
  rintro rfl
  exact absurd h (by decide)

theorem reference?_of_ne {c : Char} (h : c ≠ openBrace) (cs : List Char) :
    reference? (c :: cs) = none := by
  cases cs with
  | nil => rfl
  | cons d cs =>
    rw [reference?, if_neg]
    simp [h]

section Append

variable {α : Type} {p : α → Bool} {l : List α}

theorem dropWhile_append_of_ne_nil (h : l.dropWhile p ≠ []) (more : List α) :
    (l ++ more).dropWhile p = l.dropWhile p ++ more := by
  rw [List.dropWhile_append, if_neg (by rwa [List.isEmpty_iff])]

theorem takeWhile_append_of_dropWhile (h : l.dropWhile p ≠ []) (more : List α) :
    (l ++ more).takeWhile p = l.takeWhile p := by
  rw [List.takeWhile_append, if_neg]
  intro hall
  have hsplit := congrArg List.length (List.takeWhile_append_dropWhile (p := p) (l := l))
  rw [List.length_append, hall] at hsplit
  exact h (List.eq_nil_of_length_eq_zero (by omega))

end Append

/-- What comes after the end of a reference makes no difference to it. -/
theorem closing?_append {cs rest : List Char} {name : String}
    (h : closing? cs = some (name, rest)) (more : List Char) :
    closing? (cs ++ more) = some (name, rest ++ more) := by
  unfold closing? at h
  dsimp only [Text.trimStart] at h
  split at h
  · rename_i x y tail heq
    -- there are two braces, so neither the blanks nor the name reach the end of the text
    have hend : (((cs.dropWhile Text.isBlank).dropWhile isNameChar).dropWhile Text.isBlank) ≠ [] :=
      heq ▸ List.cons_ne_nil _ _
    have hname : (cs.dropWhile Text.isBlank).dropWhile isNameChar ≠ [] := fun hnil =>
      hend (by rw [hnil]; rfl)
    have hblank : cs.dropWhile Text.isBlank ≠ [] := fun hnil => hname (by rw [hnil]; rfl)
    unfold closing?
    dsimp only [Text.trimStart]
    rw [dropWhile_append_of_ne_nil hblank, dropWhile_append_of_ne_nil hname,
      dropWhile_append_of_ne_nil hend, takeWhile_append_of_dropWhile hname, heq]
    obtain ⟨hclose, h⟩ := Option.ite_none_right_eq_some.mp h
    cases h
    exact if_pos hclose
  · cases h

/-- What comes after a reference makes no difference to it. -/
theorem reference?_append {cs rest : List Char} {name : String}
    (h : reference? cs = some (name, rest)) (more : List Char) :
    reference? (cs ++ more) = some (name, rest ++ more) := by
  unfold reference? at h
  split at h
  · obtain ⟨hopen, h⟩ := Option.ite_none_right_eq_some.mp h
    exact (if_pos hopen).trans (closing?_append h more)
  · cases h

/-- The names of the references in a text. -/
def referencesIn (cs : List Char) : List String := (pieces cs).filterMap (·.name?)

theorem referencesIn_blanks_append {blanks : List Char} (h : ∀ c ∈ blanks, Text.isBlank c = true)
    (cs : List Char) : referencesIn (blanks ++ cs) = referencesIn cs := by
  induction blanks with
  | nil => rfl
  | cons c blanks ih =>
    have hne := ne_openBrace_of_isBlank (h c (List.mem_cons_self ..))
    have hc := reference?_of_ne hne (blanks ++ cs)
    rw [← ih fun d hd => h d (List.mem_cons_of_mem _ hd), List.cons_append, referencesIn, pieces]
    split
    · rename_i heq
      rw [hc] at heq
      cases heq
    · rfl

theorem referencesIn_blanks {blanks : List Char} (h : ∀ c ∈ blanks, Text.isBlank c = true) :
    referencesIn blanks = [] := by
  have hnil : referencesIn [] = [] := by
    rw [referencesIn, pieces]
    rfl
  have happend := referencesIn_blanks_append h []
  rwa [List.append_nil, hnil] at happend

theorem pieces_of_reference? {cs rest : List Char} {name : String}
    (h : reference? cs = some (name, rest)) : pieces cs = .reference name :: pieces rest := by
  rw [pieces]
  split
  · rename_i heq
    rw [h] at heq
    cases heq
    rfl
  · rename_i heq
    rw [h] at heq
    cases heq

/-- A text of one piece that is a reference is that reference. -/
theorem reference?_of_pieces {cs : List Char} {name : String}
    (h : pieces cs = [.reference name]) : reference? cs = some (name, []) := by
  rw [pieces] at h
  split at h
  · rename_i found rest heq
    rw [heq]
    injection h with hname hrest
    cases hname
    cases rest with
    | nil => rfl
    | cons c rest =>
      -- a text with characters in it has pieces
      rw [pieces] at hrest
      split at hrest <;> cases hrest
  · split at h
    · cases h
    · injection h with hpiece
      cases hpiece

theorem pieces_of_lone {s name : String} (h : lone? s = some name) :
    pieces (Text.trim s.toList) = [.reference name] := by
  unfold lone? at h
  split at h
  · rename_i heq
    cases h
    exact heq
  · cases h

/-- **A text that is one reference between blanks** has no other reference. -/
theorem references_of_lone {s name : String} (h : lone? s = some name) :
    referencesIn s.toList = [name] := by
  have hpieces := pieces_of_lone h
  have hstart : s.toList =
      s.toList.takeWhile Text.isBlank ++ Text.trimStart s.toList :=
    List.takeWhile_append_dropWhile.symm
  have hend : Text.trimStart s.toList = Text.trim s.toList ++
      ((Text.trimStart s.toList).reverse.takeWhile Text.isBlank).reverse := by
    rw [Text.trim, Text.trimEnd, ← List.reverse_append, List.takeWhile_append_dropWhile,
      List.reverse_reverse]
  have hrest :
      referencesIn ((Text.trimStart s.toList).reverse.takeWhile Text.isBlank).reverse = [] :=
    referencesIn_blanks fun c hc => List.mem_takeWhile_imp (List.mem_reverse.mp hc)
  rw [hstart, referencesIn_blanks_append fun c hc => List.mem_takeWhile_imp hc, hend,
    referencesIn, pieces_of_reference? (reference?_append (reference?_of_pieces hpieces) _)]
  exact congrArg (name :: ·) hrest

/-! ## References in a value -/

mutual

/-- The names of the references in a value, in reading order and as often as they occur. -/
def references : Value → List String
  | .string s => referencesIn s.toList
  | .array items => referencesOfItems items
  | .object fields => referencesOfFields fields
  | _ => []

def referencesOfItems : List Value → List String
  | [] => []
  | v :: rest => references v ++ referencesOfItems rest

def referencesOfFields : List (String × Value) → List String
  | [] => []
  | (_, v) :: rest => references v ++ referencesOfFields rest

end

mutual

theorem namesFrom_eq (names : List String) :
    ∀ v : Value, namesFrom names v = (references v).foldl addName names
  | .string _ => rfl
  | .array items => namesFromItems_eq names items
  | .object fields => namesFromFields_eq names fields
  | .null => rfl
  | .bool _ => rfl
  | .number _ => rfl

theorem namesFromItems_eq (names : List String) :
    ∀ items : List Value, namesFromItems names items =
      (referencesOfItems items).foldl addName names
  | [] => rfl
  | v :: rest => by
    rw [namesFromItems, referencesOfItems, namesFrom_eq names v, namesFromItems_eq _ rest,
      List.foldl_append]

theorem namesFromFields_eq (names : List String) :
    ∀ fields : List (String × Value), namesFromFields names fields =
      (referencesOfFields fields).foldl addName names
  | [] => rfl
  | (_, v) :: rest => by
    rw [namesFromFields, referencesOfFields, namesFrom_eq names v, namesFromFields_eq _ rest,
      List.foldl_append]

end

theorem mem_referencesOfItems {name : String} {v : Value} {items : List Value} (hv : v ∈ items)
    (h : name ∈ references v) : name ∈ referencesOfItems items := by
  induction items with
  | nil => cases hv
  | cons w rest ih =>
    rw [referencesOfItems, List.mem_append]
    rcases List.mem_cons.mp hv with rfl | hv
    · exact .inl h
    · exact .inr (ih hv)

theorem mem_referencesOfFields {name : String} {fields : List (String × Value)} :
    name ∈ referencesOfFields fields ↔ ∃ f ∈ fields, name ∈ references f.2 := by
  induction fields with
  | nil => simp [referencesOfFields]
  | cons f rest ih => rw [referencesOfFields, List.mem_append, ih, List.exists_mem_cons_iff]

/-- The names that are collected from a value are those of its references. -/
theorem mem_names {name : String} {v : Value} : name ∈ names v ↔ name ∈ references v := by
  rw [names, namesFrom_eq]
  exact Entries.mem_foldl_addKey_nil

theorem references_of_names {v : Value} (h : names v = []) : references v = [] := by
  refine List.eq_nil_iff_forall_not_mem.mpr fun name hname => ?_
  have hmem := mem_names.mpr hname
  rw [h] at hmem
  exact List.not_mem_nil hmem

theorem names_of_not_isTemplate {s : String} (h : ¬ isTemplate s = true) :
    names (.string s) = [] := by
  have hnone : (pieces s.toList).filterMap (·.name?) = [] := by
    rw [List.filterMap_eq_nil_iff]
    intro piece hpiece
    by_contra hname
    refine h (List.any_eq_true.mpr ⟨piece, hpiece, ?_⟩)
    exact Option.isSome_iff_ne_none.mpr hname
  change ((pieces s.toList).filterMap (·.name?)).foldl addName [] = []
  rw [hnone, List.foldl_nil]

/-! ## Two ways of looking up -/

/-- A relation between actions of two kinds, given the names that they look up in order: two lookups
of a name have it at that name, `pure` has it at no name, and `bind` keeps it, at the names of the
first part and then of the second. -/
structure Paired {m n : Type → Type} [Monad m] [Monad n] (lookup : String → m Value)
    (lookup' : String → n Value) (R : ∀ {α : Type}, List String → m α → n α → Prop) : Prop where
  lookup : ∀ name, R [name] (lookup name) (lookup' name)
  pure : ∀ {α : Type} (a : α), R [] (pure a : m α) (pure a : n α)
  bind : ∀ {α β : Type} {names later : List String} {x : m α} {y : n α} {f : α → m β}
    {g : α → n β}, R names x y → (∀ a, R later (f a) (g a)) →
      R (names ++ later) (x >>= f) (y >>= g)

section Paired

variable {m n : Type → Type} [Monad m] [Monad n] {lookup : String → m Value}
  {lookup' : String → n Value} {R : ∀ {α : Type}, List String → m α → n α → Prop}
  (hR : Paired lookup lookup' R)

include hR

/-- A part whose result is only put into a form. -/
theorem Paired.map {α β : Type} {names : List String} {x : m α} {y : n α} (h : R names x y)
    (f : α → β) : R names (x >>= fun a => Pure.pure (f a)) (y >>= fun a => Pure.pure (f a)) := by
  have hbind := hR.bind h fun a => hR.pure (f a)
  rwa [List.append_nil] at hbind

theorem splice_paired (ps : List Piece) :
    R (ps.filterMap (·.name?)) (splice lookup ps) (splice lookup' ps) := by
  induction ps with
  | nil => exact hR.pure _
  | cons piece rest ih =>
    cases piece with
    | char c => exact hR.map ih _
    | reference name => exact hR.bind (hR.lookup name) fun _ => hR.map ih _

theorem resolveText_paired (s : String) :
    R (referencesIn s.toList) (resolveText lookup s) (resolveText lookup' s) := by
  unfold resolveText
  split
  · rename_i name h
    rw [references_of_lone h]
    exact hR.lookup name
  · exact hR.map (splice_paired hR _) _

mutual

/-- **What relates two ways of looking up relates two ways of resolving a value.** -/
theorem resolve_paired : ∀ v : Value, R (references v) (resolve lookup v) (resolve lookup' v)
  | .string s => resolveText_paired hR s
  | .array items => hR.map (resolveItems_paired items) _
  | .object fields => hR.map (resolveFields_paired fields) _
  | .null => hR.pure _
  | .bool _ => hR.pure _
  | .number _ => hR.pure _

theorem resolveItems_paired : ∀ items : List Value,
    R (referencesOfItems items) (resolveItems lookup items) (resolveItems lookup' items)
  | [] => hR.pure _
  | v :: rest => hR.bind (resolve_paired v) fun _ => hR.map (resolveItems_paired rest) _

theorem resolveFields_paired : ∀ fields : List (String × Value),
    R (referencesOfFields fields) (resolveFields lookup fields) (resolveFields lookup' fields)
  | [] => hR.pure _
  | (_, v) :: rest => hR.bind (resolve_paired v) fun _ => hR.map (resolveFields_paired rest) _

end

end Paired

/-! ### Lookups that agree -/

variable {lookup lookup' : String → Except TemplateError Value}

/-- Ways of looking up that agree on the references in a value resolve it alike. -/
theorem resolve_congr {v : Value} (h : ∀ name ∈ references v, lookup name = lookup' name) :
    resolve lookup v = resolve lookup' v := by
  have hpaired : Paired lookup lookup' (fun names x y =>
      (∀ name ∈ names, lookup name = lookup' name) → x = y) :=
    { lookup := fun name h => h name (List.mem_singleton_self name)
      pure := fun _ _ => rfl
      bind := fun hxy hfg h => by
        rw [hxy fun name hname => h name (List.mem_append_left _ hname)]
        exact congrArg (_ >>= ·) (funext fun a =>
          hfg a fun name hname => h name (List.mem_append_right _ hname)) }
  exact resolve_paired hpaired v h

end HttpSuite.Template
