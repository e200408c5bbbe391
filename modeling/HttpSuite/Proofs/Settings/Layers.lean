import HttpSuite.Main
import HttpSuite.Proofs.Actions
import HttpSuite.Proofs.Files.Tree
import HttpSuite.Proofs.Suite.Merge

/-!
# Settings in layers

Layers are merged one over the other from the settings that set nothing (`Settings.layered`).  All
fields but one hold a single value, and `Settings.Single` lists them with their types, so that one
law speaks of them all: the last layer that sets a field counts.  The variables are the field that
is left; their mappings are merged from the bottom to the top, and what they hold at a path is what
the last layer says that does not leave the path alone.

The main statement is `Settings.layered_precedence`.  It ends with the layers of a command: what its
arguments set counts before the environment, and this before the file.
-/

namespace HttpSuite.Settings

/-! ## Fields -/

/-- The fields that hold a single value, by its type. -/
inductive Single : Type → Type where
  | printBodies : Single Bool
  | printHeaders : Single Bool
  | sslInsecure : Single Bool
  | verbose : Single Bool
  | skipTermColors : Single Bool
  | interactive : Single Bool
  | timeout : Single Seconds
  | retries : Single Nat
  | defaultBaseUrl : Single String
  | extensionDirectory : Single String
  | logLevel : Single String
  | concurrentTestSets : Single Bool

/-- The value of a field, if the settings set it. -/
def Single.get {α : Type} : Single α → Settings → Option α
  | printBodies => Settings.printBodies
  | printHeaders => Settings.printHeaders
  | sslInsecure => Settings.sslInsecure
  | verbose => Settings.verbose
  | skipTermColors => Settings.skipTermColors
  | interactive => Settings.interactive
  | timeout => Settings.timeout
  | retries => Settings.retries
  | defaultBaseUrl => Settings.defaultBaseUrl
  | extensionDirectory => Settings.extensionDirectory
  | logLevel => Settings.logLevel
  | concurrentTestSets => Settings.concurrentTestSets

/-- A layer that sets no field and no variables. -/
structure SetsNothing (s : Settings) : Prop where
  single : ∀ {α : Type} (f : Single α), f.get s = none
  bindings : s.bindings = none

variable {s layer : Settings} {layers : List Settings} {path : List String} {v : Value}

/-- Settings are their fields. -/
theorem eq_of_get {s' : Settings} (hsingle : ∀ {α : Type} (f : Single α), f.get s = f.get s')
    (hbindings : s.bindings = s'.bindings) : s = s' := by
  obtain ⟨⟩ := s
  obtain ⟨⟩ := s'
  congr
  · exact hsingle .printBodies
  · exact hsingle .printHeaders
  · exact hsingle .sslInsecure
  · exact hsingle .verbose
  · exact hsingle .skipTermColors
  · exact hsingle .interactive
  · exact hsingle .timeout
  · exact hsingle .retries
  · exact hsingle .defaultBaseUrl
  · exact hsingle .extensionDirectory
  · exact hsingle .logLevel
  · exact hsingle .concurrentTestSets

theorem SetsNothing.eq_empty (h : s.SetsNothing) : s = {} :=
  eq_of_get (fun f => (h.single f).trans (by cases f <;> rfl)) h.bindings

theorem get_merge {α : Type} (f : Single α) (s layer : Settings) :
    f.get (s.merge layer) = (f.get layer <|> f.get s) := by
  cases f <;> rfl

theorem merge_empty (s : Settings) : s.merge {} = s := by
  refine eq_of_get (fun f => ?_) ?_
  · rw [get_merge]
    cases f <;> rfl
  · change mergeVariables s.bindings none = s.bindings
    cases s.bindings <;> rfl

theorem empty_merge (s : Settings) : merge {} s = s := by
  refine eq_of_get (fun f => ?_) ?_
  · rw [get_merge]
    cases f.get s with
    | none => cases f <;> rfl
    | some a => rfl
  · change mergeVariables none s.bindings = s.bindings
    cases s.bindings <;> rfl

/-! ## Layers -/

/-- Layers one over the other, the first at the bottom. -/
def layered (layers : List Settings) : Settings := layers.foldl merge {}

theorem get_foldl_merge {α : Type} (f : Single α) (layers : List Settings) (s : Settings) :
    f.get (layers.foldl merge s) = ((layers.filterMap f.get).getLast? <|> f.get s) := by
  induction layers generalizing s with
  | nil => rfl
  | cons layer rest ih =>
    rw [List.foldl_cons, ih, get_merge, List.filterMap_cons]
    cases f.get layer with
    | none => rfl
    | some a =>
      dsimp only
      rw [List.getLast?_cons]
      cases (rest.filterMap f.get).getLast? <;> rfl

/-- Mappings merged from the first to the last. -/
def mergeAll? : List Mapping → Option Mapping
  | [] => none
  | m :: rest => some (rest.foldl Mapping.merge m)

theorem bindings_foldl_merge (layers : List Settings) (s : Settings) :
    (layers.foldl merge s).bindings =
      mergeAll? (s.bindings.toList ++ layers.filterMap bindings) := by
  induction layers generalizing s with
  | nil => cases hs : s.bindings <;> simp [hs, mergeAll?]
  | cons layer rest ih =>
    rw [List.foldl_cons, ih, List.filterMap_cons]
    change mergeAll? ((mergeVariables s.bindings layer.bindings).toList ++ _) = _
    cases s.bindings <;> cases layer.bindings <;> rfl

/-! ## Variables at a path -/

/-- What the variables hold at a path. -/
def variableAt? (s : Settings) (path : List String) : Option Value :=
  s.bindings.bind fun m => (Value.object m).at? path

/-- A layer leaves a path alone, as one without variables does. -/
def Spares (s : Settings) (path : List String) : Prop :=
  ∀ m, s.bindings = some m → (Value.object m).Spares path

/-- All mappings in the variables have each key once. -/
def IsProper (s : Settings) : Prop := ∀ m, s.bindings = some m → (Value.object m).IsProper

theorem variableAt?_merge_of_spares (hlayer : layer.IsProper) (h : layer.Spares path) :
    (s.merge layer).variableAt? path = s.variableAt? path := by
  change (mergeVariables s.bindings layer.bindings).bind _ = s.bindings.bind _
  cases hover : layer.bindings with
  | none => cases s.bindings <;> rfl
  | some new =>
    have hspares := h new hover
    cases s.bindings with
    | none => exact hspares.absent
    | some base => exact (Mapping.overlays_merge base (hlayer new hover)).spared path hspares

theorem variableAt?_foldl_of_spares (hproper : ∀ layer ∈ layers, layer.IsProper)
    (h : ∀ layer ∈ layers, layer.Spares path) (s : Settings) :
    (layers.foldl merge s).variableAt? path = s.variableAt? path := by
  induction layers generalizing s with
  | nil => rfl
  | cons layer rest ih =>
    obtain ⟨hlayer, hrest⟩ := List.forall_mem_cons.mp hproper
    obtain ⟨hspares, hspares'⟩ := List.forall_mem_cons.mp h
    rw [List.foldl_cons, ih hrest hspares', variableAt?_merge_of_spares hlayer hspares]

theorem variableAt?_merge_eq_some_iff (hlayer : layer.IsProper) (hv : ¬ v.IsMapping) :
    (s.merge layer).variableAt? path = some v ↔
      layer.variableAt? path = some v ∨ layer.Spares path ∧ s.variableAt? path = some v := by
  change (mergeVariables s.bindings layer.bindings).bind _ = _ ↔
    layer.bindings.bind _ = _ ∨ _ ∧ s.bindings.bind _ = _
  cases hover : layer.bindings with
  | none =>
    have hspares : layer.Spares path := fun m hm => by
      rw [hover] at hm
      cases hm
    cases s.bindings <;> simp [mergeVariables, hspares]
  | some new =>
    have hspares : layer.Spares path ↔ (Value.object new).Spares path :=
      ⟨fun h => h new hover, fun h m hm => Option.some.inj (hover.symm.trans hm) ▸ h⟩
    cases s.bindings with
    | none => simp [mergeVariables]
    | some base =>
      rw [hspares]
      exact Mapping.at?_merge_eq_some_iff (hlayer new hover) hv

/-- Above the settings `s`, what is no mapping comes from the last layer that has a say. -/
theorem variableAt?_foldl_eq_some_iff (hproper : ∀ layer ∈ layers, layer.IsProper)
    (hv : ¬ v.IsMapping) (s : Settings) :
    (layers.foldl merge s).variableAt? path = some v ↔
      (∃ before layer after, layers = before ++ layer :: after ∧
        layer.variableAt? path = some v ∧ ∀ above ∈ after, above.Spares path) ∨
      (∀ layer ∈ layers, layer.Spares path) ∧ s.variableAt? path = some v := by
  induction layers generalizing s with
  | nil => simp
  | cons layer rest ih =>
    obtain ⟨hlayer, hrest⟩ := List.forall_mem_cons.mp hproper
    rw [List.foldl_cons, ih hrest, variableAt?_merge_eq_some_iff hlayer hv, List.forall_mem_cons]
    constructor
    · rintro (⟨before, top, after, rfl, htop, hafter⟩ | ⟨hall, hfirst | ⟨hspares, hbase⟩⟩)
      · exact .inl ⟨layer :: before, top, after, rfl, htop, hafter⟩
      · exact .inl ⟨[], layer, rest, rfl, hfirst, hall⟩
      · exact .inr ⟨⟨hspares, hall⟩, hbase⟩
    · rintro (⟨before, top, after, hsplit, htop, hafter⟩ | ⟨⟨hspares, hall⟩, hbase⟩)
      · rcases List.cons_eq_append_iff.mp hsplit with ⟨rfl, hhead⟩ | ⟨before', rfl, rfl⟩
        · cases hhead
          exact .inr ⟨hafter, .inl htop⟩
        · exact .inl ⟨before', top, after, rfl, htop, hafter⟩
      · exact .inr ⟨hall, .inr ⟨hspares, hbase⟩⟩

/-! ## The layers of a command -/

/-- The settings of a command are three layers: the file, the environment and the arguments. -/
theorem command_settings_eq {tree : FileTree} {env : Environment} {c : CommandLine}
    (h : Command.settings tree env c = .ok s) :
    ∃ file environment, s = layered [file, environment, c.settings] ∧
      (file = {} ∨ ∃ path, load tree path = .ok file) ∧
      ofEnvironment env = .ok environment := by
  have hlayered (file environment : Settings) :
      (file.merge environment).merge c.settings = layered [file, environment, c.settings] := by
    rw [layered, List.foldl_cons, List.foldl_cons, List.foldl_cons, List.foldl_nil, empty_merge]
  have hupper {f : SettingsError → String} (file : Settings)
      (h : (do return (file.merge (← (ofEnvironment env).mapError f)).merge c.settings) = .ok s) :
      ∃ environment, s = layered [file, environment, c.settings] ∧
        ofEnvironment env = .ok environment := by
    obtain ⟨environment, henvironment, h⟩ := Except.eq_ok_of_bind h
    cases h
    exact ⟨environment, hlayered file environment, Except.eq_ok_of_mapError henvironment⟩
  unfold Command.settings at h
  dsimp only at h
  split at h
  · obtain ⟨file, hfile, h⟩ := Except.eq_ok_of_bind h
    obtain ⟨environment, hs, henvironment⟩ := hupper file h
    exact ⟨file, environment, hs, .inr ⟨_, Except.eq_ok_of_mapError hfile⟩, henvironment⟩
  · obtain ⟨environment, hs, henvironment⟩ := hupper {} h
    exact ⟨{}, environment, hs, .inl rfl, henvironment⟩

/-- **The last layer that sets something counts.**  A field has the value of the last layer that
sets it, and the variables are those of the layers that set any, merged from the bottom to the top.
So a variable that is no mapping has its value from the last layer that says something at its path,
and whatever lower layers hold at a path stays where all higher ones leave that path alone.  A layer
that sets nothing makes no difference anywhere.  In a command the arguments are above the
environment, and that is above the file. -/
theorem layered_precedence (layers : List Settings) :
    (∀ {α : Type} (f : Single α), f.get (layered layers) = (layers.filterMap f.get).getLast?) ∧
    (layered layers).bindings = mergeAll? (layers.filterMap bindings) ∧
    (∀ before blank after, blank.SetsNothing →
      layered (before ++ blank :: after) = layered (before ++ after)) ∧
    ((∀ layer ∈ layers, layer.IsProper) → ∀ path,
      (∀ v, ¬ v.IsMapping → ((layered layers).variableAt? path = some v ↔
        ∃ before layer after, layers = before ++ layer :: after ∧
          layer.variableAt? path = some v ∧ ∀ above ∈ after, above.Spares path)) ∧
      ∀ before after, layers = before ++ after → (∀ above ∈ after, above.Spares path) →
        (layered layers).variableAt? path = (layered before).variableAt? path) ∧
    ∀ tree env c s, Command.settings tree env c = .ok s → ∃ file environment,
      s = layered [file, environment, c.settings] ∧
      (file = {} ∨ ∃ path, load tree path = .ok file) ∧ ofEnvironment env = .ok environment ∧
      ∀ {α : Type} (f : Single α),
        f.get s = (f.get c.settings <|> f.get environment <|> f.get file) := by
  refine ⟨fun f => ?_, ?_, fun before blank after hblank => ?_, fun hproper path => ⟨?_, ?_⟩, ?_⟩
  · rw [layered, get_foldl_merge]
    cases (layers.filterMap f.get).getLast? with
    | none => cases f <;> rfl
    | some a => rfl
  · exact bindings_foldl_merge layers {}
  · rw [hblank.eq_empty, layered, layered, List.foldl_append, List.foldl_append, List.foldl_cons,
      merge_empty]
  · intro v hv
    rw [layered, variableAt?_foldl_eq_some_iff hproper hv]
    refine or_iff_left fun hbase => ?_
    cases hbase.2
  · rintro before after rfl hspares
    rw [layered, List.foldl_append]
    exact variableAt?_foldl_of_spares
      (fun layer hlayer => hproper layer (List.mem_append_right _ hlayer)) hspares _
  · intro tree env c s h
    obtain ⟨file, environment, rfl, hfile, henvironment⟩ := command_settings_eq h
    refine ⟨file, environment, rfl, hfile, henvironment, fun f => ?_⟩
    rw [layered, List.foldl_cons, List.foldl_cons, List.foldl_cons, List.foldl_nil, empty_merge,
      get_merge, get_merge]

/-- A layer with variables, as from a file. -/
def bottomLayer : Settings :=
  { printBodies := some true, retries := some 1, bindings := some Mapping.lowerFields }

def middleLayer : Settings := { retries := some 3 }

/-- A layer with variables that leaves some of the lower ones alone. -/
def topLayer : Settings :=
  { defaultBaseUrl := some "http://h", bindings := some Mapping.upperFields }

theorem spares_topLayer : topLayer.Spares ["user", "name"] := by
  intro m hm
  cases hm
  refine ⟨rfl, fun before hbefore w hw => ?_⟩
  rcases List.prefix_cons_iff.mp hbefore with rfl | ⟨_, rfl, hbelow⟩
  · cases hw
    exact ⟨_, rfl⟩
  rcases List.prefix_cons_iff.mp hbelow with rfl | ⟨_, rfl, hend⟩
  · cases hw
    exact ⟨_, rfl⟩
  · cases List.prefix_nil.mp hend
    cases hw

/-- A directory with a settings file. -/
def settled : FileTree where
  root := "/r"
  nodes := [(["resttest.json"], Compiler.asciiFile
    "\x7b\"retries\": 1, \"print_bodies\": false, \"log_level\": \"warn\"\x7d")]

/-- Variables of the environment, one of which is no setting. -/
def settledEnvironment : Environment :=
  [("RESTTEST_RETRIES", "3"), ("RESTTEST_PRINT_BODIES", "yes"), ("HOME", "/")]

/-- The top layer leaves the name of the user alone, and sets no retries.  In the command the
arguments set the retries, and the environment sets the flag that the file switches off. -/
theorem layered_precedence_threeLayers :
    let layers := [bottomLayer, middleLayer, topLayer]
    Single.retries.get (layered layers) = some 3 ∧
      (layered layers).bindings = some (Mapping.merge Mapping.lowerFields Mapping.upperFields) ∧
      layered [bottomLayer, {}, middleLayer, topLayer] = layered layers ∧
      (layered layers).variableAt? ["user", "name"] = some (.string "ada") ∧
      ∃ s, Command.settings settled settledEnvironment ⟨none, none, { retries := some 5 }⟩ = .ok s ∧
        Single.retries.get s = some 5 ∧ Single.printBodies.get s = some true ∧
        Single.logLevel.get s = some "warn" := by
  intro layers
  obtain ⟨hsingle, hbindings, hblank, hpaths, hcommand⟩ := layered_precedence layers
  have hproper : ∀ layer ∈ layers, layer.IsProper := by
    refine List.forall_mem_cons.mpr ⟨fun m hm => ?_, List.forall_mem_cons.mpr
      ⟨fun m hm => (nomatch hm), List.forall_mem_singleton.mpr fun m hm => ?_⟩⟩
    · cases hm
      exact Mapping.isProper_lowerFields
    · cases hm
      exact Mapping.isProper_upperFields
  have hspares : ∀ above ∈ [middleLayer, topLayer], above.Spares ["user", "name"] :=
    List.forall_mem_cons.mpr
      ⟨fun m hm => (nomatch hm), List.forall_mem_singleton.mpr spares_topLayer⟩
  have hname := (hpaths hproper ["user", "name"]).1 (.string "ada")
    (fun ⟨_, hobject⟩ => nomatch hobject)
  have hnothing : SetsNothing {} := ⟨fun f => by cases f <;> rfl, rfl⟩
  refine ⟨hsingle .retries, hbindings, hblank [bottomLayer] {} [middleLayer, topLayer] hnothing,
    hname.mpr ⟨[], bottomLayer, [middleLayer, topLayer], rfl, rfl, hspares⟩, ?_⟩
  have hfields : (Command.settings settled settledEnvironment
      ⟨none, none, { retries := some 5 }⟩).toOption.map (fun s =>
        (Single.printBodies.get s, Single.logLevel.get s)) = some (some true, some "warn") := by
    decide +kernel
  cases hs : Command.settings settled settledEnvironment ⟨none, none, { retries := some 5 }⟩ with
  | error e =>
    rw [hs] at hfields
    cases hfields
  | ok s =>
    rw [hs] at hfields
    obtain ⟨hbodies, hlevel⟩ := Prod.mk.inj (Option.some.inj hfields)
    -- the arguments set the retries, so neither the file nor the environment has a say in them
    obtain ⟨file, environment, -, -, -, hover⟩ := hcommand _ _ _ s hs
    exact ⟨s, rfl, hover .retries, hbodies, hlevel⟩

end HttpSuite.Settings
