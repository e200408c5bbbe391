import HttpSuite.Proofs.Suite.ImportForest

/-!
# The order of imports

A compiler follows imports depth first and keeps the paths it has come to.  What it comes to is the
forest of first imports of its entry: `Compiler.compileFile_spec` reads the files visited and the
sets off that forest.

## Why the nesting of imports is bounded

Each nested import adds a path to those visited, the paths are distinct, and all are paths of the
tree.  So an import that is nested deeper than the tree has nodes has been come to before, and the
compiler never gets to the bottom of the nesting it allows.  `CompileM.Follows` carries that along
as the `room` that is left, which each level of nesting and each file visited take from
(`CompileM.Follows.documentWith`).
-/

namespace HttpSuite

/-! ## What the compiler follows -/

namespace CompileM

variable {r : Registry} {tree : FileTree} {inner : DocumentCompiler} {room : Nat}
  {visited visited' : List String} {sets : List TestSet}

/-- Files that a compiler may have come to: none of them twice, and all of them in the tree. -/
structure Visitable (tree : FileTree) (visited : List String) : Prop where
  nodup : visited.Nodup
  mem_paths : ∀ q ∈ visited, q ∈ tree.paths

theorem Visitable.length_le (h : Visitable tree visited) : visited.length ≤ tree.size + 1 :=
  FileTree.length_le_of_nodup h.nodup h.mem_paths

/-- First imports may have been come to. -/
theorem Visitable.append {directory : String} {config : Config} {list : List Value}
    {f : ImportForest} (h : Visitable tree visited)
    (hf : FirstImports r tree directory visited config list f) :
    Visitable tree (f.files.reverse ++ visited) := by
  obtain ⟨hnodup, hfresh⟩ := hf.nodup_files
  refine ⟨List.nodup_append.mpr ⟨List.nodup_reverse.mpr hnodup, h.nodup, ?_⟩, fun q hq => ?_⟩
  · rintro q hq _ hq' rfl
    exact hfresh q (List.mem_reverse.mp hq) hq'
  · rcases List.mem_append.mp hq with hq | hq
    · exact hf.files_mem_paths q (List.mem_reverse.mp hq)
    · exact h.mem_paths q hq

/-- Compiling a file with `inner` follows first imports, as long as the files that have been come to
leave no more `room` than `inner` has. -/
def Follows (r : Registry) (tree : FileTree) (inner : DocumentCompiler) (room : Nat) : Prop :=
  ∀ {path : String} {config : Config} {visited visited' : List String} {sets : List TestSet},
    Visitable tree (path :: visited) → tree.size + 1 ≤ visited.length + room →
    (fileWith inner tree path config).run.run (path :: visited) = (.ok sets, visited') →
    ∃ own d below, tree.nodes? path = some own ∧ Draft.ofOwn r own config = .ok d ∧
      FirstImports r tree (Path.parent path) (path :: visited) config own below ∧
      visited' = below.files.reverse ++ path :: visited ∧
      sets = below.sets r tree ++ d.sets (some path)

/-- Where there is no room left there is no file left to come to. -/
theorem follows_zero : Follows r tree inner 0 := by
  intro path config visited visited' sets hvisited hroom _
  have hle := hvisited.length_le
  rw [List.length_cons] at hle
  omega

theorem eq_ok_of_importWith {directory : String} {v : Value} {config : Config}
    (h : (importWith inner tree directory v config).run.run visited = (.ok sets, visited')) :
    ∃ name path, v = .string name ∧
      tree.canonicalPath (Path.join directory name) = .ok path ∧
      ((path ∈ visited ∧ sets = [] ∧ visited' = visited) ∨
        (path ∉ visited ∧
          (fileWith inner tree path config).run.run (path :: visited) = (.ok sets, visited'))) := by
  cases v with
  | string name =>
    rcases hpath : tree.canonicalPath (Path.join directory name) with fault | path
    · rw [run_importWith_of_error hpath] at h
      cases h
    · refine ⟨name, path, rfl, hpath, ?_⟩
      by_cases hseen : path ∈ visited
      · rw [run_importWith_of_mem hpath hseen] at h
        cases h
        exact .inl ⟨hseen, rfl, rfl⟩
      · rw [run_importWith_of_notMem hpath hseen] at h
        exact .inr ⟨hseen, h⟩
  | _ => cases h

theorem importTarget?_eq_some {directory name path : String} {node : Value}
    (hkey : node.singleKey = .ok ("import", .string name))
    (hpath : tree.canonicalPath (Path.join directory name) = .ok path) :
    tree.importTarget? directory node = some path := by
  rw [FileTree.importTarget?, hkey]
  simp only [hpath]
  rfl

theorem isImport_of_singleKey {node v : Value} (hkey : node.singleKey = .ok ("import", v)) :
    node.isImport = true := by
  rw [Value.isImport, Value.nodeKey?_eq_some.mpr ⟨v, hkey⟩]
  rfl

theorem isImport_of_nodeKey?_ne {node : Value} (hkey : node.nodeKey? ≠ some "import") :
    node.isImport = false := by
  rw [Value.isImport, beq_eq_false_iff_ne]
  exact hkey

/-- **Imports leave the draft of a document alone**: they add to what is imported, and the rest of
the draft is that of the other nodes. -/
theorem own_of_nodes {importSets : Value → Config → CompileM (List TestSet)} {list : List Value}
    {d d' : Draft}
    (h : (nodes r importSets list d).run.run visited = (.ok d', visited')) :
    Draft.addNodes r (list.filter fun node => !node.isImport) { d with imported := [] } =
      .ok { d' with imported := [] } := by
  induction list generalizing d visited with
  | nil =>
    cases h
    rfl
  | cons node rest ih =>
    rcases eq_ok_of_nodes_cons h with ⟨v, sets, visited₁, hkey, -, hrest⟩ |
      ⟨hkey, d₁, hadd, hrest⟩
    · rw [List.filter_cons, isImport_of_singleKey hkey, Bool.not_true, if_neg Bool.false_ne_true]
      have hown := ih hrest
      exact hown
    · rw [List.filter_cons, isImport_of_nodeKey?_ne hkey, Bool.not_false, if_pos rfl,
        Draft.addNodes_cons (Draft.add_imported hadd [])]
      exact ih hrest

/-- **The nodes of a document that compiles** follow its first imports, and the sets of the forest
go to what is imported. -/
theorem firstImports_of_nodes (hinner : Follows r tree inner room) {directory : String}
    {list : List Value} {d d' : Draft} (hvisited : Visitable tree visited)
    (hroom : tree.size + 1 ≤ visited.length + room)
    (h : (nodes r (importWith inner tree directory) list d).run.run visited =
      (.ok d', visited')) :
    ∃ f, FirstImports r tree directory visited d.config list f ∧
      visited' = f.files.reverse ++ visited ∧
      d'.imported = d.imported ++ f.sets r tree := by
  induction list generalizing d visited with
  | nil =>
    cases h
    exact ⟨.nil, .nil, rfl, (List.append_nil _).symm⟩
  | cons node rest ih =>
    rcases eq_ok_of_nodes_cons h with ⟨v, sets, visited₁, hkey, hsets, hrest⟩ |
      ⟨hkey, d₁, hadd, hrest⟩
    · obtain ⟨name, path, rfl, hpath, hcase⟩ := eq_ok_of_importWith hsets
      have htarget := importTarget?_eq_some hkey hpath
      rcases hcase with ⟨hmem, rfl, rfl⟩ | ⟨hfresh, hfile⟩
      · obtain ⟨f, hf, hvisited', himported⟩ := ih hvisited hroom hrest
        rw [List.append_nil] at himported
        exact ⟨f, .again htarget hmem hf, hvisited', himported⟩
      · have hpaths : path ∈ tree.paths := FileTree.canonicalPath_mem_paths hpath
        have hfile' : Visitable tree (path :: visited) :=
          ⟨List.nodup_cons.mpr ⟨hfresh, hvisited.nodup⟩,
            List.forall_mem_cons.mpr ⟨hpaths, hvisited.mem_paths⟩⟩
        obtain ⟨own, down, below, hnodes, hdown, hbelow, rfl, rfl⟩ := hinner hfile' hroom hfile
        obtain ⟨next, hnext, hvisited', himported⟩ :=
          ih (hfile'.append hbelow) (by simp; omega) hrest
        refine ⟨.file path d.config below next,
          .first htarget hfresh hnodes hdown hbelow hnext, ?_, ?_⟩
        · rw [hvisited', ImportForest.files]
          simp only [List.reverse_cons, List.reverse_append, List.append_assoc,
            List.singleton_append]
        · rw [himported, ImportForest.sets, FirstImports.ownSets_eq hnodes hdown]
          simp only [List.append_assoc]
    · obtain ⟨f, hf, hvisited', himported⟩ := ih hvisited hroom hrest
      rw [Draft.config_add hadd] at hf
      exact ⟨f, .other (isImport_of_nodeKey?_ne hkey) hf, hvisited',
        himported.trans (congrArg (· ++ f.sets r tree) (Draft.imported_add hadd))⟩

theorem eq_ok_of_fileWith {path : String} {config : Config}
    (h : (fileWith inner tree path config).run.run visited = (.ok sets, visited')) :
    ∃ document, tree.document path = .ok document ∧
      (inner document (Path.parent path) (some path) config).run.run visited =
        (.ok sets, visited') := by
  obtain ⟨document, visited₁, hread, hinner⟩ := ExceptT.eq_ok_of_bind h
  obtain ⟨hdocument, rfl⟩ := eq_ok_of_ofExcept hread
  exact ⟨document, hdocument, hinner⟩

/-- One more level of nesting makes room for one more file. -/
theorem Follows.documentWith (hinner : Follows r tree inner room) :
    Follows r tree (documentWith r tree inner) (room + 1) := by
  intro path config visited visited' sets hvisited hroom h
  obtain ⟨document, hdocument, hcompiled⟩ := eq_ok_of_fileWith h
  obtain ⟨list, d, hlist, hnodes, rfl⟩ := eq_ok_of_documentWith hcompiled
  have hroom' : tree.size + 1 ≤ (path :: visited).length + room := by
    rw [List.length_cons]
    omega
  obtain ⟨f, hf, hvisited', himported⟩ := firstImports_of_nodes hinner hvisited hroom' hnodes
  refine ⟨list, { d with imported := [] }, f, ?_, own_of_nodes hnodes, hf, hvisited', ?_⟩
  · rw [FileTree.nodes?, hdocument]
    exact hlist
  · rw [Draft.sets_eq_append, Draft.sets_eq_append, himported]
    rfl

/-- **The compiler follows first imports**: it has room for all files of the tree. -/
theorem follows_document (depth : Nat) : Follows r tree (document r tree depth) (depth + 1) := by
  induction depth with
  | zero => exact follows_zero.documentWith
  | succ depth ih => exact ih.documentWith

end CompileM

/-! ## Compiling a file -/

namespace Compiler

theorem eq_ok_of_compileFile {c c' : Compiler} {tree : FileTree} {path : String}
    {sets : List TestSet} (hfresh : c.visited = [])
    (h : c.compileFile tree path = (.ok sets, c')) :
    ∃ entry, tree.canonicalPath path = .ok entry ∧
      (CompileM.fileWith (CompileM.document c.registry tree tree.size) tree entry
        c.startConfig).run.run [entry] = (.ok sets, c'.visited) := by
  rcases hpath : tree.canonicalPath path with fault | entry
  · rw [c.compileFile_of_error hpath] at h
    cases h
  · rw [c.compileFile_of_ok hpath] at h
    have hvisited : (c.comeTo entry).visited = [entry] := by
      rw [comeTo, hfresh]
      rfl
    have hrun := run_run_of_run h
    rw [hvisited] at hrun
    exact ⟨entry, rfl, hrun⟩

/-- **Compiling a file** with a compiler that has come to none follows the imports of a forest.  The
files visited are those that can be reached from the entry, each come to once.  The sets are those
of the forest in postorder: each is that of the nodes of one file, compiled from the configuration
that the first importer of the file had in effect, no two are of one file, and a file visited has
one exactly if it declares a step. -/
theorem compileFile_spec {c c' : Compiler} {tree : FileTree} {path : String}
    {sets : List TestSet} (hfresh : c.visited = [])
    (h : c.compileFile tree path = (.ok sets, c')) :
    ∃ (entry : String) (f : ImportForest), tree.canonicalPath path = .ok entry ∧
      f.IsOf c.registry tree entry c.startConfig ∧
      c'.visited = f.files.reverse ∧
      (∀ q, q ∈ c'.visited ↔ Relation.ReflTransGen tree.Imports entry q) ∧
      sets = f.sets c.registry tree ∧
      sets.map TestSet.source = (f.finished.filter tree.declaresStep).map some ∧
      (sets.map TestSet.source).Nodup ∧
      (∀ s ∈ sets, ∃ q ∈ c'.visited, s.source = some q) ∧
      ∀ q ∈ c'.visited, (∃ s ∈ sets, s.source = some q) ↔ tree.declaresStep q = true := by
  obtain ⟨entry, hentry, hfile⟩ := eq_ok_of_compileFile hfresh h
  have hvisitable : CompileM.Visitable tree [entry] :=
    ⟨List.nodup_singleton _, List.forall_mem_singleton.mpr
      (FileTree.canonicalPath_mem_paths hentry)⟩
  obtain ⟨own, d, below, hn, hd, hbelow, hvisited, hsets⟩ :=
    CompileM.follows_document tree.size hvisitable (by simp) hfile
  have hf : (ImportForest.file entry c.startConfig below .nil).IsOf c.registry tree entry
      c.startConfig := ⟨own, d, below, hn, hd, hbelow, rfl⟩
  have hfiles : c'.visited =
      (ImportForest.file entry c.startConfig below .nil).files.reverse := by
    rw [hvisited, ImportForest.files, ImportForest.files, List.append_nil, List.reverse_cons]
  have hsets' : sets =
      (ImportForest.file entry c.startConfig below .nil).sets c.registry tree := by
    rw [hsets, ImportForest.sets, ImportForest.sets, FirstImports.ownSets_eq hn hd,
      List.append_nil]
  have hsources := hf.sources_sets
  rw [← hsets'] at hsources
  have hmem : ∀ q, some q ∈ sets.map TestSet.source ↔
      q ∈ c'.visited ∧ tree.declaresStep q = true := by
    intro q
    rw [hsources, hfiles, List.mem_reverse, List.mem_map_of_injective (Option.some_injective _),
      List.mem_filter, (ImportForest.finished_perm_files _).mem_iff]
  refine ⟨entry, _, hentry, hf, hfiles, fun q => ?_, hsets', hsources, ?_, ?_, ?_⟩
  · rw [hfiles, List.mem_reverse]
    exact hf.mem_files_iff
  · have hnodup := (ImportForest.finished_perm_files _).nodup_iff.mpr hf.nodup_files
    rw [hsources]
    exact (hnodup.filter _).map (Option.some_injective _)
  · intro s hs
    have hsource : s.source ∈ sets.map TestSet.source := List.mem_map_of_mem hs
    obtain ⟨q, -, hq⟩ := List.mem_map.mp (hsources ▸ hsource)
    rw [← hq, hmem] at hsource
    exact ⟨q, hsource.1, hq.symm⟩
  · intro q hq
    rw [← List.mem_map, hmem]
    exact ⟨fun h => h.2, fun h => ⟨hq, h⟩⟩

/-- Two files that import each other, one of them by a roundabout path. -/
def roundabout : FileTree where
  root := "/r"
  nodes := [
    (["a.json"], asciiFile "[\x7b\"import\": \"b.json\"\x7d, \x7b\"url\": \"http://h/\"\x7d]"),
    (["b.json"], asciiFile "[\x7b\"import\": \"sub/../a.json\"\x7d]"),
    (["sub"], .directory)]

/-- The files of `roundabout` are visited once each, although each can be reached from itself. -/
theorem compileFile_roundabout :
    let c : Compiler := { registry := .builtins }
    c.visited = [] ∧ ∃ sets c', c.compileFile roundabout "/r/a.json" = (.ok sets, c') ∧
      c'.visited = ["/r/b.json", "/r/a.json"] ∧
      (sets.map TestSet.source).Nodup ∧
      ∀ q, q ∈ c'.visited ↔ Relation.ReflTransGen roundabout.Imports "/r/a.json" q := by
  intro c
  have hok : (c.compileFile roundabout "/r/a.json").1.toBool = true := by decide +kernel
  have hvisited : (c.compileFile roundabout "/r/a.json").2.visited =
      ["/r/b.json", "/r/a.json"] := by decide +kernel
  have hentry : (roundabout.canonicalPath "/r/a.json").toOption = some "/r/a.json" := by
    decide +kernel
  refine ⟨rfl, ?_⟩
  rcases hc : c.compileFile roundabout "/r/a.json" with ⟨e | sets, c'⟩
  · rw [hc] at hok
    cases hok
  · rw [hc] at hvisited
    obtain ⟨entry, f, hpath, -, -, hreach, -, -, hnodup, -, -⟩ := compileFile_spec rfl hc
    rw [hpath] at hentry
    cases hentry
    exact ⟨sets, c', rfl, hvisited, hnodup, hreach⟩

end Compiler

end HttpSuite
