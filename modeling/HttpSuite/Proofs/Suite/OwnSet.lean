import HttpSuite.Proofs.Suite.History

/-!
# The own set of a document

A document that compiles gives the sets of the files it imports and, if it declares a step, a set of
its own.  Imports are compiled while the document is, from the configuration in effect there, but
what they declare goes to sets of their own and into no part of the draft of the importer
(`CompileM.own_of_nodes`).  So the own set of a document is the one that it has without its imports,
whichever files there are (`CompileM.document_without_imports`).
-/

namespace HttpSuite

/-- The sets of a document from a source, compiled when some files had been `visited`, are those of
files that had not, and after them its `own` set, if the document declares a step. -/
structure TestSet.IsOwn (list : List Value) (source : Option String) (visited : List String)
    (sets : List TestSet) (own : Option TestSet) : Prop where
  isLast : ∃ imported, sets = imported ++ own.toList ∧
    ∀ s ∈ imported, CompileM.FromUnseen visited s
  isSome_iff : own.isSome ↔ ∃ node ∈ list, node.IsStep
  source_eq : ∀ s ∈ own, s.source = source

namespace CompileM

variable {r : Registry} {tree : FileTree} {visited visited' : List String} {directory : String}
  {source : Option String} {config : Config} {sets : List TestSet}

/-- A document compiles its imports by a compiler that tells their sets from its own. -/
theorem document_eq_ownOrUnseen (r : Registry) (tree : FileTree) (depth : Nat) :
    ∃ inner, document r tree depth = documentWith r tree inner ∧ OwnOrUnseen inner ∧
      ∀ v directory source config, Oblivious (inner v directory source config) := by
  cases depth with
  | zero => exact ⟨_, rfl, @ownOrUnseen_nothing, fun _ _ _ _ => oblivious_pure []⟩
  | succ depth => exact ⟨_, rfl, ownOrUnseen_document depth, oblivious_document r tree depth⟩

/-- **The own set of a document** is that of the draft of its other nodes than imports. -/
theorem isOwn_of_document {depth : Nat} {v : Value}
    (h : (document r tree depth v directory source config).run.run visited =
      (.ok sets, visited')) :
    ∃ list d, v.nodes? = some list ∧ Draft.ofOwn r list config = .ok d ∧
      TestSet.IsOwn list source visited sets (d.own? source) := by
  obtain ⟨inner, hinner, hunseen, hgrows⟩ := document_eq_ownOrUnseen r tree depth
  rw [hinner] at h
  obtain ⟨list, d, hlist, hnodes, rfl⟩ := eq_ok_of_documentWith h
  have hown : Draft.ofOwn r list config = .ok { d with imported := [] } := own_of_nodes hnodes
  refine ⟨list, _, hlist, hown, ⟨d.imported, d.sets_eq_append source, fun s hs => ?_⟩, ?_, ?_⟩
  · exact (imported_of_nodes hunseen hgrows hnodes s hs).resolve_left List.not_mem_nil
  · rw [← Draft.isSome_setConfig_ofOwn hown, Draft.own?, Option.isSome_map]
  · intro s hs
    obtain ⟨_, -, rfl⟩ := Option.mem_map.mp hs
    rfl

/-- Nodes that are no imports give the set of their draft, in any tree. -/
theorem document_of_ofOwn {list : List Value} {d : Draft}
    (h : Draft.ofOwn r list config = .ok d) (tree : FileTree) (depth : Nat)
    (directory : String) (source : Option String) (visited : List String) :
    (document r tree depth (.array (list.filter fun node => !node.isImport)) directory source
      config).run.run visited = (.ok (d.own? source).toList, visited) := by
  obtain ⟨inner, hinner⟩ := document_eq_documentWith r tree depth
  have himports : ∀ node ∈ list.filter fun node => !node.isImport,
      node.nodeKey? ≠ some "import" := by
    intro node hnode hkey
    have hother := (List.mem_filter.mp hnode).2
    rw [Value.isImport, hkey] at hother
    exact absurd hother (by decide)
  have hnodes (importSets) : (nodes r importSets (list.filter fun node => !node.isImport)
      ⟨config, [], none, []⟩).run.run visited = (Draft.ofOwn r list config, visited) :=
    run_nodes_of_no_import himports
  rw [hinner]
  change (nodes r (importWith inner tree directory) _ _ >>= fun d => pure (d.sets source) :
    CompileM (List TestSet)).run.run visited = _
  rw [ExceptT.run_run_bind, hnodes, h]
  change (Except.ok (d.sets source), visited) = _
  rw [d.sets_eq_append source, Draft.imported_ofOwn h, List.nil_append]

/-- **Imports do not leak into the importer.**  When a document compiles, what it gives besides its
own set are the sets of other files; and its own set, steps, snapshots and configuration alike, is
all that the document without its import nodes gives, whatever files there are then and wherever the
document is compiled. -/
theorem document_without_imports {depth : Nat} {v : Value}
    (h : (document r tree depth v directory source config).run.run visited =
      (.ok sets, visited')) :
    ∃ list own, v.nodes? = some list ∧ TestSet.IsOwn list source visited sets own ∧
      ∀ (tree' : FileTree) (depth' : Nat) (directory' : String) (visited₁ : List String),
        (document r tree' depth' (.array (list.filter fun node => !node.isImport)) directory'
          source config).run.run visited₁ = (.ok own.toList, visited₁) := by
  obtain ⟨list, d, hlist, hown, hisOwn⟩ := isOwn_of_document h
  exact ⟨list, d.own? source, hlist, hisOwn, fun tree' depth' directory' visited₁ =>
    document_of_ofOwn hown tree' depth' directory' source visited₁⟩

/-! ### A file that configures itself -/

/-- Two files that configure their own steps; one imports the other. -/
def configuring : FileTree where
  root := "/r"
  nodes := [
    (["b.json"], Compiler.asciiFile ("[\x7b\"config\": \x7b\"retries\": 3\x7d\x7d, " ++
      "\x7b\"import\": \"c.json\"\x7d, \x7b\"url\": \"http://h/b\"\x7d]")),
    (["c.json"], Compiler.asciiFile ("[\x7b\"config\": \x7b\"retries\": 4\x7d\x7d, " ++
      "\x7b\"url\": \"http://h/c\"\x7d]"))]

/-- A document with an import between its first step and its second. -/
def importingBetween : List Value := [
  .object [("config", .object [("retries", .number (.int 2))])],
  .object [("url", .string "http://h/1")],
  .object [("import", .string "b.json")],
  .object [("url", .string "http://h/2")]]

/-- Three sets, of which the last is the one of the document without its import. -/
theorem document_without_imports_between :
    ∃ sets visited' own, (document .builtins configuring configuring.size (.array importingBetween)
        "/r" none {}).run.run [] = (.ok sets, visited') ∧
      sets.map TestSet.source = [some "/r/c.json", some "/r/b.json", none] ∧
      TestSet.IsOwn importingBetween none [] sets own ∧
      own.map (fun s => s.tests.map fun t => t.2.retries) = some [2, 2] ∧
      (document .builtins ⟨"/", []⟩ 0
        (.array (importingBetween.filter fun node => !node.isImport)) "/" none {}).run.run [] =
        (.ok own.toList, []) := by
  have hsources : ((document .builtins configuring configuring.size (.array importingBetween)
      "/r" none {}).run.run []).1.toOption.map (List.map TestSet.source) =
      some [some "/r/c.json", some "/r/b.json", none] := by decide +kernel
  have hretries : ((document .builtins ⟨"/", []⟩ 0
      (.array (importingBetween.filter fun node => !node.isImport)) "/" none {}).run.run
      []).1.toOption.map (fun sets => sets.map fun s => s.tests.map fun t => t.2.retries) =
      some [[2, 2]] := by decide +kernel
  rcases hrun : (document .builtins configuring configuring.size (.array importingBetween)
    "/r" none {}).run.run [] with ⟨e | sets, visited'⟩
  · rw [hrun] at hsources
    cases hsources
  · rw [hrun] at hsources
    obtain ⟨list, own, hlist, hown, hwithout⟩ := document_without_imports hrun
    cases hlist
    have halone := hwithout ⟨"/", []⟩ 0 "/" []
    rw [halone] at hretries
    refine ⟨sets, visited', own, rfl, Option.some.inj hsources, hown, ?_, halone⟩
    cases own with
    | none => cases hretries
    | some s => exact congrArg List.head? (Option.some.inj hretries)

end CompileM

end HttpSuite
