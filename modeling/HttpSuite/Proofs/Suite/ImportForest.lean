import HttpSuite.Proofs.Files.Tree
import HttpSuite.Proofs.Suite.Compile
import Mathlib.Data.List.Nodup
import Mathlib.Data.Option.Basic
import Mathlib.Logic.Relation

/-!
# Forests of imports

What a compiler does with imports is an `ImportForest`: the files that a document is the first to
import, each with the configuration it is compiled from, the files that it is the first to import in
turn, and the files that come after it.  `FirstImports` says when a forest is that of a document,
with nothing about a compiler in it, and a document has no two (`FirstImports.unique`).

* The forest in preorder, `ImportForest.files`, is the order in which files are come to.
* The forest in postorder, `ImportForest.finished`, is the order in which they are done, and so the
  order of their sets.

Whatever the imports look like, the files of the forest of an entry are those that can be reached
from it (`ImportForest.IsOf.mem_files_iff`), each once (`ImportForest.IsOf.nodup_files`), and the
sets of the forest are those of its files that declare a step (`ImportForest.IsOf.sources_sets`).
-/

namespace HttpSuite

/-! ## The graph of imports -/

/-- An import node. -/
def Value.isImport (node : Value) : Bool := node.nodeKey? == some "import"

namespace FileTree

variable (tree : FileTree)

/-- The nodes of the document in a file. -/
def nodes? (path : String) : Option (List Value) := (tree.document path).toOption.bind Value.nodes?

/-- The file that an import node in a directory names. -/
def importTarget? (directory : String) (node : Value) : Option String :=
  match node.singleKey with
  | .ok ("import", .string path) => (tree.canonicalPath (Path.join directory path)).toOption
  | _ => none

/-- The document in one file has a node that imports another one. -/
def Imports (p q : String) : Prop :=
  ∃ list, tree.nodes? p = some list ∧
    ∃ node ∈ list, tree.importTarget? (Path.parent p) node = some q

/-- The document in a file declares a step. -/
def declaresStep (path : String) : Bool :=
  (tree.nodes? path).any fun list => list.any fun node => decide node.IsStep

end FileTree

/-- The draft of a document without what it imports. -/
def Draft.ofOwn (r : Registry) (list : List Value) (config : Config) :
    Except CompileError Draft :=
  addNodes r (list.filter fun node => !node.isImport) ⟨config, [], none, []⟩

/-! ## Forests -/

/-- Files that are imported one after another, each for the first time: its path, the configuration
it is compiled from, what it imports `below` it and what comes `next` to it. -/
inductive ImportForest where
  | nil
  | file (path : String) (config : Config) (below next : ImportForest)

namespace ImportForest

/-- The files in the order in which they are come to. -/
def files : ImportForest → List String
  | nil => []
  | file path _ below next => path :: (below.files ++ next.files)

/-- The files in the order in which they are done. -/
def finished : ImportForest → List String
  | nil => []
  | file path _ below next => below.finished ++ path :: next.finished

/-- The sets of the nodes that stand in a file. -/
def ownSets (r : Registry) (tree : FileTree) (path : String) (config : Config) : List TestSet :=
  match (tree.nodes? path).map fun list => Draft.ofOwn r list config with
  | some (.ok d) => d.sets (some path)
  | _ => []

/-- The sets of all files in the order in which they are done. -/
def sets (r : Registry) (tree : FileTree) : ImportForest → List TestSet
  | nil => []
  | file path config below next =>
    below.sets r tree ++ (ownSets r tree path config ++ next.sets r tree)

theorem finished_perm_files (f : ImportForest) : f.finished.Perm f.files := by
  induction f with
  | nil => exact .nil
  | file path config below next ihBelow ihNext =>
    rw [finished, files]
    exact List.perm_middle.trans ((ihBelow.append ihNext).cons path)

variable {path q : String} {config : Config} {below next : ImportForest} {seen : List String}

/-- What was seen when the imports of a file were done is in the forest or was seen before. -/
theorem mem_files_of_below (h : q ∈ below.files ∨ q ∈ path :: seen) :
    q ∈ (file path config below next).files ∨ q ∈ seen := by
  rw [files, List.mem_cons, List.mem_append]
  rcases h with h | h
  · exact .inl (.inr (.inl h))
  · rcases List.mem_cons.mp h with rfl | h
    · exact .inl (.inl rfl)
    · exact .inr h

/-- What was seen when the files next to a file were done is in the forest or was seen before. -/
theorem mem_files_of_next (h : q ∈ next.files ∨ q ∈ below.files.reverse ++ path :: seen) :
    q ∈ (file path config below next).files ∨ q ∈ seen := by
  rcases h with h | h
  · rw [files, List.mem_cons, List.mem_append]
    exact .inl (.inr (.inr h))
  · rw [List.mem_append, List.mem_reverse] at h
    exact mem_files_of_below h

end ImportForest

/-- **First imports.**  Some nodes in a directory, read under a configuration when some files have
been `seen`, are the first to import the files of a forest: an import of a file not seen puts the
file into the forest, with the configuration in effect and with its own first imports below it, and
an import of a file seen puts nothing there. -/
inductive FirstImports (r : Registry) (tree : FileTree) :
    (directory : String) → (seen : List String) → Config → List Value → ImportForest → Prop where
  | nil {directory : String} {seen : List String} {config : Config} :
      FirstImports r tree directory seen config [] .nil
  | other {directory : String} {seen : List String} {config : Config} {node : Value}
      {list : List Value} {f : ImportForest} (key : node.isImport = false)
      (rest : FirstImports r tree directory seen (config.after r node) list f) :
      FirstImports r tree directory seen config (node :: list) f
  | again {directory : String} {seen : List String} {config : Config} {node : Value}
      {list : List Value} {f : ImportForest} {path : String}
      (target : tree.importTarget? directory node = some path) (visited : path ∈ seen)
      (rest : FirstImports r tree directory seen config list f) :
      FirstImports r tree directory seen config (node :: list) f
  | first {directory : String} {seen : List String} {config : Config} {node : Value}
      {list own : List Value} {below next : ImportForest} {path : String} {d : Draft}
      (target : tree.importTarget? directory node = some path) (fresh : path ∉ seen)
      (nodes : tree.nodes? path = some own) (draft : Draft.ofOwn r own config = .ok d)
      (imports : FirstImports r tree (Path.parent path) (path :: seen) config own below)
      (rest : FirstImports r tree directory (below.files.reverse ++ path :: seen) config list
        next) :
      FirstImports r tree directory seen config (node :: list) (.file path config below next)

/-- A forest of one file, which is not imported but given, with its first imports. -/
def ImportForest.IsOf (r : Registry) (tree : FileTree) (entry : String) (config : Config)
    (f : ImportForest) : Prop :=
  ∃ own d below, tree.nodes? entry = some own ∧ Draft.ofOwn r own config = .ok d ∧
    FirstImports r tree (Path.parent entry) [entry] config own below ∧
    f = .file entry config below .nil

namespace FirstImports

variable {r : Registry} {tree : FileTree} {directory : String} {seen : List String}
  {config : Config} {list : List Value} {f : ImportForest} {p q : String}

/-! ## What first imports come to -/

theorem isImport_of_importTarget? {node : Value}
    (h : tree.importTarget? directory node = some q) : node.isImport = true := by
  unfold FileTree.importTarget? at h
  split at h
  · rename_i path hkey
    rw [Value.isImport, Value.nodeKey?_eq_some.mpr ⟨_, hkey⟩]
    rfl
  · cases h

/-- Only an import node names a file. -/
theorem importTarget?_ne_some {node : Value} (h : node.isImport = false) :
    tree.importTarget? directory node ≠ some q := by
  intro htarget
  rw [isImport_of_importTarget? htarget] at h
  cases h

theorem importTarget?_mem_paths {node : Value}
    (h : tree.importTarget? directory node = some q) : q ∈ tree.paths := by
  unfold FileTree.importTarget? at h
  split at h
  · rename_i path hkey
    cases hpath : tree.canonicalPath (Path.join directory path) with
    | error fault =>
      rw [hpath] at h
      cases h
    | ok path' =>
      rw [hpath] at h
      cases h
      exact FileTree.canonicalPath_mem_paths hpath
  · cases h

/-- **A document has one forest.** -/
theorem unique {g : ImportForest} (hf : FirstImports r tree directory seen config list f)
    (hg : FirstImports r tree directory seen config list g) : f = g := by
  induction hf generalizing g with
  | nil =>
    cases hg
    rfl
  | other key _ ih =>
    cases hg with
    | other _ rest => exact ih rest
    | again target _ _ => exact absurd target (importTarget?_ne_some key)
    | first target _ _ _ _ _ => exact absurd target (importTarget?_ne_some key)
  | again target visited _ ih =>
    cases hg with
    | other key _ => exact absurd target (importTarget?_ne_some key)
    | again _ _ rest => exact ih rest
    | first target' fresh _ _ _ _ =>
      rw [target] at target'
      cases target'
      exact absurd visited fresh
  | first target fresh nodes draft imports rest ihImports ihRest =>
    cases hg with
    | other key _ => exact absurd target (importTarget?_ne_some key)
    | again target' visited _ =>
      rw [target] at target'
      cases target'
      exact absurd visited fresh
    | first target' _ nodes' _ imports' rest' =>
      rw [target] at target'
      cases target'
      rw [nodes] at nodes'
      cases nodes'
      obtain rfl := ihImports imports'
      obtain rfl := ihRest rest'
      rfl

/-- No file is come to twice. -/
theorem nodup_files (h : FirstImports r tree directory seen config list f) :
    f.files.Nodup ∧ ∀ q ∈ f.files, q ∉ seen := by
  induction h with
  | nil => exact ⟨List.nodup_nil, fun q hq => absurd hq List.not_mem_nil⟩
  | other _ _ ih => exact ih
  | again _ _ _ ih => exact ih
  | first target fresh nodes draft imports rest ihImports ihRest =>
    obtain ⟨hbelow, hbelow'⟩ := ihImports
    obtain ⟨hnext, hnext'⟩ := ihRest
    simp only [List.mem_append, List.mem_reverse, List.mem_cons, not_or] at hbelow' hnext'
    rw [ImportForest.files]
    refine ⟨List.nodup_cons.mpr ⟨?_, List.nodup_append.mpr ⟨hbelow, hnext, ?_⟩⟩, ?_⟩
    · rw [List.mem_append, not_or]
      exact ⟨fun hmem => (hbelow' _ hmem).1 rfl, fun hmem => (hnext' _ hmem).2.1 rfl⟩
    · rintro q hq _ hq' rfl
      exact (hnext' q hq').1 hq
    · intro q hq
      rcases List.mem_cons.mp hq with rfl | hq
      · exact fresh
      · rcases List.mem_append.mp hq with hq | hq
        · exact (hbelow' q hq).2
        · exact (hnext' q hq).2.2

/-- Every file is the path of a node of the tree. -/
theorem files_mem_paths (h : FirstImports r tree directory seen config list f) :
    ∀ q ∈ f.files, q ∈ tree.paths := by
  induction h with
  | nil => exact fun q hq => absurd hq List.not_mem_nil
  | other _ _ ih => exact ih
  | again _ _ _ ih => exact ih
  | first target fresh nodes draft imports rest ihImports ihRest =>
    intro q hq
    rcases List.mem_cons.mp hq with rfl | hq
    · exact importTarget?_mem_paths target
    · rcases List.mem_append.mp hq with hq | hq
      · exact ihImports q hq
      · exact ihRest q hq

/-- Whatever the nodes import is in the forest or was seen before. -/
theorem target_mem (h : FirstImports r tree directory seen config list f) :
    ∀ node ∈ list, tree.importTarget? directory node = some q → q ∈ f.files ∨ q ∈ seen := by
  induction h with
  | nil => exact fun node hnode => absurd hnode List.not_mem_nil
  | other key _ ih =>
    intro node hnode htarget
    rcases List.mem_cons.mp hnode with rfl | hnode
    · exact absurd htarget (importTarget?_ne_some key)
    · exact ih node hnode htarget
  | again target visited _ ih =>
    intro node hnode htarget
    rcases List.mem_cons.mp hnode with rfl | hnode
    · rw [target] at htarget
      cases htarget
      exact .inr visited
    · exact ih node hnode htarget
  | first target fresh nodes draft imports rest ihImports ihRest =>
    intro node hnode htarget
    rcases List.mem_cons.mp hnode with rfl | hnode
    · rw [target] at htarget
      cases htarget
      exact .inl (List.mem_cons_self ..)
    · exact ImportForest.mem_files_of_next (ihRest node hnode htarget)

/-- Whatever a file of the forest imports is in the forest or was seen before. -/
theorem imports_mem (h : FirstImports r tree directory seen config list f) :
    ∀ p ∈ f.files, tree.Imports p q → q ∈ f.files ∨ q ∈ seen := by
  induction h with
  | nil => exact fun p hp => absurd hp List.not_mem_nil
  | other _ _ ih => exact ih
  | again _ _ _ ih => exact ih
  | first target fresh nodes draft imports rest ihImports ihRest =>
    intro p hp himports
    rcases List.mem_cons.mp hp with rfl | hp
    · obtain ⟨own, hown, node, hnode, htarget⟩ := himports
      rw [nodes] at hown
      cases hown
      exact ImportForest.mem_files_of_below (imports.target_mem node hnode htarget)
    · rcases List.mem_append.mp hp with hp | hp
      · exact ImportForest.mem_files_of_below (ihImports p hp himports)
      · exact ImportForest.mem_files_of_next (ihRest p hp himports)

/-- Every file of the forest is reached from an import of the nodes. -/
theorem reachable (h : FirstImports r tree directory seen config list f) :
    ∀ q ∈ f.files, ∃ node ∈ list, ∃ p, tree.importTarget? directory node = some p ∧
      Relation.ReflTransGen tree.Imports p q := by
  induction h with
  | nil => exact fun q hq => absurd hq List.not_mem_nil
  | other _ _ ih =>
    intro q hq
    obtain ⟨node, hnode, hreach⟩ := ih q hq
    exact ⟨node, List.mem_cons_of_mem _ hnode, hreach⟩
  | again _ _ _ ih =>
    intro q hq
    obtain ⟨node, hnode, hreach⟩ := ih q hq
    exact ⟨node, List.mem_cons_of_mem _ hnode, hreach⟩
  | first target fresh nodes draft imports rest ihImports ihRest =>
    intro q hq
    rcases List.mem_cons.mp hq with rfl | hq
    · exact ⟨_, List.mem_cons_self .., _, target, .refl⟩
    · rcases List.mem_append.mp hq with hq | hq
      · obtain ⟨node, hnode, p, hp, hreach⟩ := ihImports q hq
        have hstep : tree.Imports _ p := ⟨_, nodes, node, hnode, hp⟩
        exact ⟨_, List.mem_cons_self .., _, target, .head hstep hreach⟩
      · obtain ⟨node, hnode, hreach⟩ := ihRest q hq
        exact ⟨node, List.mem_cons_of_mem _ hnode, hreach⟩

end FirstImports

/-! ## The sets of a forest -/

namespace FileTree

variable {tree : FileTree} {path : String} {list : List Value}

theorem declaresStep_iff (h : tree.nodes? path = some list) :
    tree.declaresStep path = true ↔ ∃ node ∈ list, node.IsStep := by
  rw [declaresStep, h, Option.any_some, List.any_eq_true]
  simp only [decide_eq_true_eq]

end FileTree

namespace Draft

variable {r : Registry} {list : List Value} {config : Config} {d : Draft}

theorem imported_ofOwn (h : ofOwn r list config = .ok d) : d.imported = [] := imported_addNodes h

/-- A document has a set exactly if it declares a step; imports declare none. -/
theorem isSome_setConfig_ofOwn (h : ofOwn r list config = .ok d) :
    d.setConfig.isSome ↔ ∃ node ∈ list, node.IsStep := by
  have hnone : (⟨config, [], none, []⟩ : Draft).setConfig.isSome = false := rfl
  rw [isSome_setConfig_addNodes h, hnone]
  constructor
  · rintro (hfalse | ⟨node, hnode, hstep⟩)
    · cases hfalse
    · exact ⟨node, (List.mem_filter.mp hnode).1, hstep⟩
  · rintro ⟨node, hnode, hstep⟩
    refine .inr ⟨node, List.mem_filter.mpr ⟨hnode, ?_⟩, hstep⟩
    rw [Bool.not_eq_true', Value.isImport, beq_eq_false_iff_ne]
    intro hkey
    rw [Value.IsStep, hkey] at hstep
    exact absurd hstep (by decide)

theorem sources_sets_ofOwn {tree : FileTree} {path : String} (hn : tree.nodes? path = some list)
    (h : ofOwn r list config = .ok d) :
    (d.sets (some path)).map TestSet.source =
      ([path].filter tree.declaresStep).map some := by
  have hiff : d.setConfig.isSome ↔ tree.declaresStep path = true := by
    rw [isSome_setConfig_ofOwn h, FileTree.declaresStep_iff hn]
  rw [sets, imported_ofOwn h, List.filter_singleton]
  cases hc : d.setConfig with
  | none =>
    rw [hc] at hiff
    have hfalse : ¬tree.declaresStep path = true := fun ht => by simpa using hiff.mpr ht
    simp [hfalse]
  | some seed =>
    rw [hc] at hiff
    have htrue : tree.declaresStep path = true := hiff.mp rfl
    simp [htrue]

end Draft

namespace FirstImports

variable {r : Registry} {tree : FileTree} {directory : String} {seen : List String}
  {config : Config} {list : List Value} {f : ImportForest}

theorem ownSets_eq {path : String} {own : List Value} {d : Draft}
    (hn : tree.nodes? path = some own) (hd : Draft.ofOwn r own config = .ok d) :
    ImportForest.ownSets r tree path config = d.sets (some path) := by
  rw [ImportForest.ownSets, hn, Option.map_some, hd]

/-- **The sets of a forest are those of its files that declare a step**, in the order in which the
files are done. -/
theorem sources_sets (h : FirstImports r tree directory seen config list f) :
    (f.sets r tree).map TestSet.source = (f.finished.filter tree.declaresStep).map some := by
  induction h with
  | nil => rfl
  | other _ _ ih => exact ih
  | again _ _ _ ih => exact ih
  | @first directory seen config node list own below next path d target fresh nodes draft imports
      rest ihImports ihRest =>
    rw [ImportForest.sets, ownSets_eq nodes draft, List.map_append, List.map_append, ihImports,
      ihRest, Draft.sources_sets_ofOwn nodes draft, ImportForest.finished, ← List.map_append,
      ← List.map_append, ← List.filter_append, ← List.filter_append, List.singleton_append]

end FirstImports

/-! ## The forest of an entry -/

namespace ImportForest.IsOf

variable {r : Registry} {tree : FileTree} {entry q : String} {config : Config} {f : ImportForest}

theorem nodup_files (h : f.IsOf r tree entry config) : f.files.Nodup := by
  obtain ⟨own, d, below, hn, hd, hbelow, rfl⟩ := h
  obtain ⟨hnodup, hfresh⟩ := hbelow.nodup_files
  rw [files, files, List.append_nil]
  exact List.nodup_cons.mpr ⟨fun hmem => hfresh _ hmem (List.mem_cons_self ..), hnodup⟩

/-- **The files of a forest are those that can be reached from its entry.** -/
theorem mem_files_iff (h : f.IsOf r tree entry config) :
    q ∈ f.files ↔ Relation.ReflTransGen tree.Imports entry q := by
  obtain ⟨own, d, below, hn, hd, hbelow, rfl⟩ := h
  rw [files, files, List.append_nil]
  constructor
  · intro hq
    rcases List.mem_cons.mp hq with rfl | hq
    · exact .refl
    · obtain ⟨node, hnode, p, hp, hreach⟩ := hbelow.reachable q hq
      have hstep : tree.Imports entry p := ⟨own, hn, node, hnode, hp⟩
      exact .head hstep hreach
  · -- what a file of the forest imports is one of its files
    have hclosed {p : String} (hp : p ∈ below.files ∨ p ∈ [entry]) : p ∈ entry :: below.files := by
      rcases hp with hp | hp
      · exact List.mem_cons_of_mem _ hp
      · rw [List.mem_singleton.mp hp]
        exact List.mem_cons_self ..
    intro hreach
    induction hreach with
    | refl => exact List.mem_cons_self ..
    | tail _ himports ih =>
      rcases List.mem_cons.mp ih with rfl | hp
      · obtain ⟨own', hown', node, hnode, htarget⟩ := himports
        rw [hn] at hown'
        cases hown'
        exact hclosed (hbelow.target_mem node hnode htarget)
      · exact hclosed (hbelow.imports_mem _ hp himports)

theorem sources_sets (h : f.IsOf r tree entry config) :
    (f.sets r tree).map TestSet.source = (f.finished.filter tree.declaresStep).map some := by
  obtain ⟨own, d, below, hn, hd, hbelow, rfl⟩ := h
  rw [sets, sets, FirstImports.ownSets_eq hn hd, finished, finished, List.append_nil,
    List.map_append, hbelow.sources_sets, Draft.sources_sets_ofOwn hn hd, ← List.map_append,
    ← List.filter_append]

end ImportForest.IsOf

end HttpSuite
