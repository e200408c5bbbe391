import HttpSuite.Extension.Load
import HttpSuite.Proofs.Actions

/-!
# Loading registers one declaration after another

The sections of a manifest differ in the sort of kinds that they name and in nothing else, so they
are told apart by a `Section` and a declaration with its section is a `Registration`.  What the
manifests of a directory declare, in the order of loading, is `Extension.registrations`, and a load
that succeeds is the registration of all of these in turn (`Extension.registers_of_loadInto`).
-/

namespace HttpSuite

/-! ## Sections -/

/-- The sections of a manifest. -/
inductive Section where
  | validators
  | extractors
  | generators
  | operations
deriving DecidableEq

namespace Section

/-- The sections in the order in which they are loaded. -/
def all : List Section := [validators, extractors, generators, operations]

/-- The kinds that a section names. -/
abbrev Kind : Section → Type
  | validators => ValidatorKind
  | extractors => ExtractorKind
  | generators => GeneratorKind
  | operations => OperationKind

def fieldsOf : Section → Manifest → Mapping
  | validators, m => m.validators
  | extractors, m => m.extractors
  | generators, m => m.generators
  | operations, m => m.operations

end Section

/-- A declaration and the section that it stands in. -/
structure Registration extends Declaration where
  under : Section

namespace Registration

variable {s : Section} {name : String} {x : Registration}

/-- Whether a name of a section is the one that is registered. -/
def Names (x : Registration) (s : Section) (name : String) : Prop := x.under = s ∧ x.name = name

instance : Decidable (x.Names s name) := inferInstanceAs (Decidable (_ ∧ _))

/-- Both names are in small letters, as declarations have them. -/
def IsLower (x : Registration) : Prop := lower x.name = x.name ∧ lower x.base = x.base

end Registration

namespace Registry

/-- What a key stands for in a section. -/
def alias? (r : Registry) : (s : Section) → String → Option (Alias s.Kind)
  | .validators, key => r.validator? key
  | .extractors, key => r.extractor? key
  | .generators, key => r.generator? key
  | .operations, key => r.operation? key

def add : (s : Section) → String → Alias s.Kind → Registry → Registry
  | .validators, name, a, r => r.addValidator name a
  | .extractors, name, a, r => r.addExtractor name a
  | .generators, name, a, r => r.addGenerator name a
  | .operations, name, a, r => r.addOperation name a

/-- Registers a declaration over the kind it names, if there is one. -/
def register (r : Registry) (x : Registration) : Option Registry :=
  (r.alias? x.under x.base).map fun a => r.add x.under x.name (a.preset x.preset)

def registerAll (r : Registry) (xs : List Registration) : Option Registry := xs.foldlM register r

variable {r q : Registry} {xs ys : List Registration} {x : Registration}

@[simp] theorem registerAll_nil : r.registerAll [] = some r := rfl

theorem registerAll_cons :
    r.registerAll (x :: xs) = (r.register x).bind fun q => q.registerAll xs := rfl

theorem registerAll_append :
    r.registerAll (xs ++ ys) = (r.registerAll xs).bind fun q => q.registerAll ys :=
  List.foldlM_append

end Registry

namespace Extension

variable {tree : FileTree} {path kind directory : String} {p p' p'' : Progress}
  {xs ys : List Registration} {r r' : Registry} {names : List String}

/-! ## The declarations of a directory -/

/-- What a section declares. -/
def sectionRegistrations (m : Manifest) (s : Section) :
    Except ManifestFault (List Registration) := do
  return (← Declaration.ofSection (s.fieldsOf m)).map (⟨·, s⟩)

/-- What a manifest declares, section after section. -/
def manifestRegistrations (tree : FileTree) (path : String) :
    Except SettingsError (List Registration) := do
  let m ← manifest tree path
  return (← (Section.all.mapM (sectionRegistrations m)).mapError
    (.invalidManifest path)).flatten

/-- What the manifests of a directory declare, in the order of their names. -/
def registrations (tree : FileTree) (directory : String) :
    Except SettingsError (List Registration) := do
  return (← (← manifests tree directory).mapM (manifestRegistrations tree)).flatten

theorem isLower_of_ofField {name : String} {v : Value} {d : Declaration} {s : Section}
    (h : Declaration.ofField name v = .ok d) : (Registration.mk d s).IsLower := by
  unfold Declaration.ofField at h
  split at h
  · split at h
    · cases h
      exact ⟨lower_lower _, lower_lower _⟩
    · cases h
  · cases h

/-- Declarations are in small letters. -/
theorem isLower_of_mem_registrations (h : registrations tree directory = .ok xs) :
    ∀ x ∈ xs, x.IsLower := by
  obtain ⟨paths, -, h⟩ := Except.eq_ok_of_bind h
  obtain ⟨parts, hparts, h⟩ := Except.eq_ok_of_bind h
  cases h
  intro x hx
  obtain ⟨part, hpart, hx⟩ := List.mem_flatten.mp hx
  obtain ⟨path, -, hpath⟩ := exists_of_mem_mapM hparts hpart
  obtain ⟨m, -, hpath⟩ := Except.eq_ok_of_bind hpath
  obtain ⟨sections, hsections, hpath⟩ := Except.eq_ok_of_bind hpath
  cases hpath
  obtain ⟨declared, hdeclared, hx⟩ := List.mem_flatten.mp hx
  obtain ⟨s, -, hs⟩ := exists_of_mem_mapM (Except.eq_ok_of_mapError hsections) hdeclared
  obtain ⟨ds, hds, hs⟩ := Except.eq_ok_of_bind hs
  cases hs
  obtain ⟨d, hd, rfl⟩ := List.mem_map.mp hx
  obtain ⟨⟨name, v⟩, -, hfield⟩ := exists_of_mem_mapM hds hd
  exact isLower_of_ofField hfield

/-! ## Loading -/

/-- Between two states of a load some declarations are registered in turn. -/
def Registers (p p' : Progress) (xs : List Registration) : Prop :=
  p.registry.registerAll xs = some p'.registry ∧ p'.names = p.names ++ xs.map (·.name)

theorem Registers.refl (p : Progress) : Registers p p [] :=
  ⟨rfl, (List.append_nil _).symm⟩

theorem Registers.append (h : Registers p p' xs) (h' : Registers p' p'' ys) :
    Registers p p'' (xs ++ ys) := by
  obtain ⟨hr, hnames⟩ := h
  obtain ⟨hr', hnames'⟩ := h'
  refine ⟨?_, ?_⟩
  · rw [Registry.registerAll_append, hr, Option.bind_some, hr']
  · rw [hnames', hnames, List.map_append, List.append_assoc]

theorem Registers.cons {x : Registration} {q : Registry} (hx : p.registry.register x = some q)
    (h : Registers ⟨q, p.names ++ [x.name]⟩ p' xs) : Registers p p' (x :: xs) := by
  have hone : Registers p ⟨q, p.names ++ [x.name]⟩ [x] := by
    refine ⟨?_, rfl⟩
    rw [Registry.registerAll_cons, hx]
    rfl
  exact hone.append h

/-- A section registers its declarations in turn. -/
theorem registers_of_register {s : Section} {fields : Mapping} {u : Unit}
    (h : (register path kind (fun r => r.alias? s) (Registry.add s) fields).run.run p =
      (.ok u, p')) :
    ∃ ds, Declaration.ofSection fields = .ok ds ∧ Registers p p' (ds.map (⟨·, s⟩)) := by
  unfold register at h
  cases hds : Declaration.ofSection fields with
  | error fault =>
    rw [hds] at h
    cases h
  | ok ds =>
    rw [hds] at h
    dsimp only at h
    rw [pure_bind] at h
    obtain ⟨_, _, hloop, hu⟩ := ExceptT.eq_ok_of_bind h
    cases hu
    clear h hds
    refine ⟨ds, rfl, ?_⟩
    -- each turn of the loop registers one declaration
    induction ds generalizing p with
    | nil =>
      cases hloop
      exact .refl _
    | cons d ds ih =>
      rw [List.forIn_cons] at hloop
      obtain ⟨_, _, hturn, hloop⟩ := ExceptT.eq_ok_of_bind hloop
      obtain ⟨_, _, hget, hturn⟩ := ExceptT.eq_ok_of_bind hturn
      cases hget
      cases ha : p.registry.alias? s d.base with
      | none =>
        rw [ha] at hturn
        cases hturn
      | some a =>
        rw [ha] at hturn
        cases hturn
        exact .cons (by rw [Registry.register, ha]; rfl) (ih hloop)

/-- A manifest registers what it declares. -/
theorem registers_of_loadManifest {u : Unit}
    (h : (loadManifest tree path).run.run p = (.ok u, p')) :
    ∃ xs, manifestRegistrations tree path = .ok xs ∧ Registers p p' xs := by
  unfold loadManifest at h
  cases hm : manifest tree path with
  | error e =>
    rw [hm] at h
    cases h
  | ok m =>
    rw [hm] at h
    dsimp only at h
    rw [pure_bind] at h
    obtain ⟨_, p₁, hv, h⟩ := ExceptT.eq_ok_of_bind h
    obtain ⟨_, p₂, hx, h⟩ := ExceptT.eq_ok_of_bind h
    obtain ⟨_, p₃, hg, ho⟩ := ExceptT.eq_ok_of_bind h
    obtain ⟨vs, hvs, hv⟩ := registers_of_register (s := .validators) hv
    obtain ⟨es, hes, hx⟩ := registers_of_register (s := .extractors) hx
    obtain ⟨gs, hgs, hg⟩ := registers_of_register (s := .generators) hg
    obtain ⟨os, hos, ho⟩ := registers_of_register (s := .operations) ho
    refine ⟨_, ?_, hv.append (hx.append (hg.append ho))⟩
    have hsections : Section.all.mapM (sectionRegistrations m) =
        .ok [vs.map (⟨·, .validators⟩), es.map (⟨·, .extractors⟩), gs.map (⟨·, .generators⟩),
          os.map (⟨·, .operations⟩)] :=
      mapM_eq_ok_iff.mpr <| by
        refine .cons ?_ (.cons ?_ (.cons ?_ (.cons ?_ .nil)))
        · rw [sectionRegistrations, Section.fieldsOf, hvs]
          rfl
        · rw [sectionRegistrations, Section.fieldsOf, hes]
          rfl
        · rw [sectionRegistrations, Section.fieldsOf, hgs]
          rfl
        · rw [sectionRegistrations, Section.fieldsOf, hos]
          rfl
    rw [manifestRegistrations, hm]
    change (do return (← (Section.all.mapM (sectionRegistrations m)).mapError _).flatten) = _
    rw [hsections]
    simp only [Except.mapError, pure, Except.pure, bind, Except.bind, List.flatten_cons,
      List.flatten_nil, List.append_nil]

/-- The manifests of a list register what they declare, one after the other. -/
theorem registers_of_forM {paths : List String} {u : Unit}
    (h : (paths.forM (loadManifest tree)).run.run p = (.ok u, p')) :
    ∃ parts, paths.mapM (manifestRegistrations tree) = .ok parts ∧
      Registers p p' parts.flatten := by
  induction paths generalizing p with
  | nil =>
    cases h
    exact ⟨[], rfl, .refl _⟩
  | cons path paths ih =>
    obtain ⟨_, p₁, hpath, h⟩ := ExceptT.eq_ok_of_bind h
    obtain ⟨xs, hxs, hpath⟩ := registers_of_loadManifest hpath
    obtain ⟨parts, hparts, h⟩ := ih h
    refine ⟨xs :: parts, ?_, hpath.append h⟩
    rw [List.mapM_cons, hxs, hparts]
    rfl

/-- **A load that succeeds registers what the manifests declare, one declaration after another.** -/
theorem registers_of_loadInto (h : loadInto tree directory r = (.ok names, r')) :
    ∃ xs, registrations tree directory = .ok xs ∧ names = xs.map (·.name) ∧
      r.registerAll xs = some r' := by
  unfold loadInto at h
  cases hpaths : manifests tree directory with
  | error e =>
    rw [hpaths] at h
    cases h
  | ok paths =>
    rw [hpaths] at h
    dsimp only at h
    rcases hload : (paths.forM (loadManifest tree)).run.run ⟨r, []⟩ with ⟨e | u, p⟩
    · rw [hload] at h
      cases h
    · rw [hload] at h
      cases h
      obtain ⟨parts, hparts, hr, hnames⟩ := registers_of_forM hload
      refine ⟨parts.flatten, ?_, hnames, hr⟩
      rw [registrations, hpaths]
      change (do return (← paths.mapM (manifestRegistrations tree)).flatten) = _
      rw [hparts]
      rfl

end Extension

end HttpSuite
