import HttpSuite.Proofs.Suite.Imports

/-!
# A compiler that has been used before

The files that a compiler has come to stay with it from call to call.  A later call leaves out a
file that an earlier one has come to, whether or not the earlier call has succeeded.  So what a call
comes to depends on the calls before it, and this file says how far.

Two runs go side by side, one of a new compiler and one of a compiler that has `earlier` files
behind it.  As long as the new one comes to none of those, each has come to just the files that the
other has, up to the earlier ones (`CompileM.Abreast`), and both take the same branch at every
import.  `Compiler.perform_after` is what follows: a call has the result of a new compiler unless
the new compiler comes to a file that an earlier call has come to, the entry of the call aside; and
no such file is among the sets of the call.  The two results do differ
(`Compiler.second_call_drops_import`).
-/

namespace HttpSuite

/-! ## Two runs side by side -/

namespace CompileM

variable {α β : Type} {earlier visited used : List String}

/-- The files of one run are those of another one and the earlier ones. -/
def Abreast (earlier visited used : List String) : Prop :=
  ∀ q, q ∈ used ↔ q ∈ visited ∨ q ∈ earlier

theorem Abreast.cons (h : Abreast earlier visited used) (path : String) :
    Abreast earlier (path :: visited) (path :: used) := fun q => by
  rw [List.mem_cons, List.mem_cons, h q, or_assoc]

/-- A run that forgets no file, and that notices earlier files only if it comes to one of them. -/
structure Oblivious (m : CompileM α) : Prop where
  grows : ∀ {visited : List String}, ∀ q ∈ visited, q ∈ (m.run.run visited).2
  same : ∀ {earlier visited used : List String}, Abreast earlier visited used →
    (∀ q ∈ (m.run.run visited).2, q ∉ visited → q ∉ earlier) →
    (m.run.run used).1 = (m.run.run visited).1 ∧
      Abreast earlier (m.run.run visited).2 (m.run.run used).2

theorem Oblivious.of_constant {m : CompileM α} {outcome : Except CompileError α}
    (h : ∀ visited, m.run.run visited = (outcome, visited)) : Oblivious m where
  grows := fun {visited} q hq => by rwa [h visited]
  same := fun {earlier visited used} habreast _ => by
    rw [h visited, h used]
    exact ⟨rfl, habreast⟩

theorem oblivious_pure (a : α) : Oblivious (pure a : CompileM α) := .of_constant fun _ => rfl

theorem oblivious_throw (e : CompileError) : Oblivious (throw e : CompileM α) :=
  .of_constant fun _ => rfl

theorem oblivious_ofExcept (x : Except CompileError α) : Oblivious (ofExcept x) := by
  cases x with
  | ok a => exact oblivious_pure a
  | error e => exact oblivious_throw e

/-- What the first part of a run comes to, the whole run comes to. -/
theorem Oblivious.grows_bind (m : CompileM α) {f : α → CompileM β} (hf : ∀ a, Oblivious (f a)) :
    ∀ q ∈ (m.run.run visited).2, q ∈ ((m >>= f).run.run visited).2 := by
  intro q hq
  rw [ExceptT.run_run_bind]
  rcases hrun : m.run.run visited with ⟨e | a, visited₁⟩
  · rwa [hrun] at hq
  · rw [hrun] at hq
    exact (hf a).grows q hq

theorem Oblivious.bind {m : CompileM α} {f : α → CompileM β} (hm : Oblivious m)
    (hf : ∀ a, Oblivious (f a)) : Oblivious (m >>= f) where
  grows := fun q hq => Oblivious.grows_bind m hf q (hm.grows q hq)
  same := fun {earlier visited used} habreast hfresh => by
    obtain ⟨hsame, habreast₁⟩ := hm.same habreast fun q hq =>
      hfresh q (Oblivious.grows_bind m hf q hq)
    have hgrows : ∀ q ∈ visited, q ∈ (m.run.run visited).2 := hm.grows
    rw [ExceptT.run_run_bind] at hfresh
    rw [ExceptT.run_run_bind, ExceptT.run_run_bind]
    rcases hrun : m.run.run visited with ⟨outcome, visited₁⟩
    rcases hrun' : m.run.run used with ⟨outcome', used₁⟩
    rw [hrun] at hfresh hgrows
    rw [hrun, hrun'] at hsame habreast₁
    cases hsame
    cases outcome with
    | error e => exact ⟨rfl, habreast₁⟩
    | ok a =>
      -- a file that is new to the second part is new to the whole run
      exact (hf a).same habreast₁ fun q hq hnew => hfresh q hq fun hmem => hnew (hgrows q hmem)

variable (r : Registry) (tree : FileTree) {inner : DocumentCompiler}

theorem oblivious_fileWith
    (hinner : ∀ v directory source config, Oblivious (inner v directory source config))
    (path : String) (config : Config) : Oblivious (fileWith inner tree path config) :=
  (oblivious_ofExcept _).bind fun v => hinner v _ _ _

/-- **An import** goes the same way in both runs unless it comes to an earlier file. -/
theorem oblivious_importWith
    (hinner : ∀ v directory source config, Oblivious (inner v directory source config))
    (directory : String) (v : Value) (config : Config) :
    Oblivious (importWith inner tree directory v config) := by
  cases v with
  | string name =>
    rcases hpath : tree.canonicalPath (Path.join directory name) with fault | path
    · exact .of_constant fun visited => run_importWith_of_error hpath config
    have hfile := oblivious_fileWith tree hinner path config
    refine ⟨fun {visited} q hq => ?_, fun {earlier visited used} habreast hfresh => ?_⟩
    · by_cases hseen : path ∈ visited
      · rwa [run_importWith_of_mem hpath hseen]
      · rw [run_importWith_of_notMem hpath hseen]
        exact hfile.grows q (List.mem_cons_of_mem _ hq)
    · by_cases hseen : path ∈ visited
      · rw [run_importWith_of_mem hpath hseen,
          run_importWith_of_mem hpath ((habreast path).mpr (.inl hseen))]
        exact ⟨rfl, habreast⟩
      · rw [run_importWith_of_notMem hpath hseen] at hfresh ⊢
        have hnew : path ∉ earlier := hfresh path (hfile.grows path (List.mem_cons_self ..)) hseen
        have hunused : path ∉ used := fun hmem => ((habreast path).mp hmem).elim hseen hnew
        rw [run_importWith_of_notMem hpath hunused]
        exact hfile.same (habreast.cons path) fun q hq hmem =>
          hfresh q hq fun hq => hmem (List.mem_cons_of_mem _ hq)
  | _ => exact oblivious_throw _

theorem oblivious_nodes {importSets : Value → Config → CompileM (List TestSet)}
    (himport : ∀ v config, Oblivious (importSets v config)) (list : List Value) (d : Draft) :
    Oblivious (nodes r importSets list d) := by
  induction list generalizing d with
  | nil => exact oblivious_pure d
  | cons node rest ih =>
    rw [nodes]
    refine (oblivious_ofExcept _).bind fun kv => ?_
    dsimp only
    split
    · exact (himport _ _).bind fun sets => ih _
    · exact (oblivious_ofExcept _).bind fun d => ih d

theorem oblivious_documentWith
    (hinner : ∀ v directory source config, Oblivious (inner v directory source config))
    (v : Value) (directory : String) (source : Option String) (config : Config) :
    Oblivious (documentWith r tree inner v directory source config) := by
  have hlist (list : List Value) : Oblivious
      (nodes r (importWith inner tree directory) list ⟨config, [], none, []⟩ >>= fun d =>
        pure (d.sets source)) :=
    (oblivious_nodes r (oblivious_importWith tree hinner directory) list _).bind fun d =>
      oblivious_pure _
  cases v with
  | array list => exact hlist list
  | null => exact hlist []
  | _ => exact oblivious_throw _

theorem oblivious_document (depth : Nat) (v : Value) (directory : String)
    (source : Option String) (config : Config) :
    Oblivious (document r tree depth v directory source config) := by
  induction depth generalizing v directory source config with
  | zero =>
    exact oblivious_documentWith r tree (fun _ _ _ _ => oblivious_pure []) v directory source config
  | succ depth ih => exact oblivious_documentWith r tree ih v directory source config

/-! ## Where sets come from -/

variable {r tree}

/-- The set of a file that had not been come to. -/
def FromUnseen (visited : List String) (s : TestSet) : Prop :=
  ∃ q, s.source = some q ∧ q ∉ visited

theorem FromUnseen.mono {visited visited₁ : List String} {s : TestSet}
    (h : FromUnseen visited₁ s) (hgrows : ∀ q ∈ visited, q ∈ visited₁) : FromUnseen visited s := by
  obtain ⟨q, hq, hfresh⟩ := h
  exact ⟨q, hq, fun hmem => hfresh (hgrows q hmem)⟩

/-- Every set of a document is its own or that of a file that had not been come to. -/
def OwnOrUnseen (inner : DocumentCompiler) : Prop :=
  ∀ {v directory source config} {visited visited' : List String} {sets : List TestSet},
    (inner v directory source config).run.run visited = (.ok sets, visited') →
    ∀ s ∈ sets, s.source = source ∨ FromUnseen visited s

theorem fromUnseen_of_importWith (hinner : OwnOrUnseen inner) {directory : String} {v : Value}
    {config : Config} {visited visited' : List String} {sets : List TestSet}
    (h : (importWith inner tree directory v config).run.run visited = (.ok sets, visited')) :
    ∀ s ∈ sets, FromUnseen visited s := by
  obtain ⟨name, path, rfl, -, ⟨-, rfl, -⟩ | ⟨hfresh, hfile⟩⟩ := eq_ok_of_importWith h
  · exact fun s hs => nomatch hs
  · obtain ⟨document, -, hdocument⟩ := eq_ok_of_fileWith hfile
    intro s hs
    rcases hinner hdocument s hs with hsource | hunseen
    · exact ⟨path, hsource, hfresh⟩
    · exact hunseen.mono fun q hq => List.mem_cons_of_mem _ hq

theorem imported_of_nodes (hinner : OwnOrUnseen inner)
    (hgrows : ∀ v directory source config, Oblivious (inner v directory source config))
    {directory : String} {list : List Value} {d d' : Draft} {visited visited' : List String}
    (h : (nodes r (importWith inner tree directory) list d).run.run visited =
      (.ok d', visited')) :
    ∀ s ∈ d'.imported, s ∈ d.imported ∨ FromUnseen visited s := by
  induction list generalizing d visited with
  | nil =>
    cases h
    exact fun s hs => .inl hs
  | cons node rest ih =>
    intro s hs
    rcases eq_ok_of_nodes_cons h with ⟨v, sets, visited₁, -, hsets, hrest⟩ | ⟨-, d₁, hadd, hrest⟩
    · have hvisited : ∀ q ∈ visited, q ∈ visited₁ := fun q hq => by
        have hmem := (oblivious_importWith tree hgrows directory v d.config).grows q hq
        rwa [hsets] at hmem
      rcases ih hrest s hs with hmem | hunseen
      · rcases List.mem_append.mp hmem with hmem | hmem
        · exact .inl hmem
        · exact .inr (fromUnseen_of_importWith hinner hsets s hmem)
      · exact .inr (hunseen.mono hvisited)
    · rw [← Draft.imported_add hadd]
      exact ih hrest s hs

theorem ownOrUnseen_documentWith (hinner : OwnOrUnseen inner)
    (hgrows : ∀ v directory source config, Oblivious (inner v directory source config)) :
    OwnOrUnseen (documentWith r tree inner) := by
  intro v directory source config visited visited' sets h s hs
  obtain ⟨list, d, -, hnodes, rfl⟩ := eq_ok_of_documentWith h
  have himported := imported_of_nodes hinner hgrows hnodes
  have hcases : s ∈ d.imported ∨ s.source = source := by
    rw [Draft.sets] at hs
    split at hs
    · rcases List.mem_append.mp hs with hs | hs
      · exact .inl hs
      · rw [List.mem_singleton.mp hs]
        exact .inr rfl
    · exact .inl hs
  rcases hcases with hmem | hown
  · rcases himported s hmem with hnone | hunseen
    · cases hnone
    · exact .inr hunseen
  · exact .inl hown

theorem ownOrUnseen_nothing : OwnOrUnseen fun _ _ _ _ => pure [] := by
  intro _ _ _ _ _ _ _ h
  cases h
  exact fun s hs => nomatch hs

theorem ownOrUnseen_document (depth : Nat) : OwnOrUnseen (document r tree depth) := by
  induction depth with
  | zero => exact ownOrUnseen_documentWith @ownOrUnseen_nothing fun _ _ _ _ => oblivious_pure []
  | succ depth ih => exact ownOrUnseen_documentWith ih (oblivious_document r tree depth)

end CompileM

/-! ## One call after others -/

namespace Compiler

/-- A call of a compiler: for a document that is given, or for one in a file. -/
inductive Call where
  | document (document : Value) (directory : String)
  | file (path : String)

/-- The file that a call begins with. -/
def Call.ownFile? (tree : FileTree) : Call → Option String
  | document _ _ => none
  | file path => (tree.canonicalPath path).toOption

/-- What a call comes to, and the compiler after it. -/
def perform (c : Compiler) (tree : FileTree) : Call →
    Except CompileError (List TestSet) × Compiler
  | .document document directory => c.compile tree document directory
  | .file path => c.compileFile tree path

/-- The compiler after some calls, whatever became of them; the files may change in between. -/
def after (c : Compiler) : List (FileTree × Call) → Compiler
  | [] => c
  | (tree, call) :: rest => (c.perform tree call).2.after rest

/-- A new compiler with the same registry and variables. -/
def renewed (c : Compiler) : Compiler := { c with visited := [] }

theorem renewed_perform (c : Compiler) (tree : FileTree) (call : Call) :
    (c.perform tree call).2.renewed = c.renewed := by
  cases call <;> rfl

theorem renewed_after (c : Compiler) (history : List (FileTree × Call)) :
    (c.after history).renewed = c.renewed := by
  induction history generalizing c with
  | nil => rfl
  | cons call rest ih => rw [after, ih, renewed_perform]

/-- A call that comes to no file which the compiler had come to has the result of a new one. -/
theorem perform_eq_renewed (c : Compiler) (tree : FileTree) (call : Call)
    (h : ∀ q ∈ (c.renewed.perform tree call).2.visited, q ∈ c.visited →
      call.ownFile? tree = some q) :
    (c.perform tree call).1 = (c.renewed.perform tree call).1 := by
  cases call with
  | document v directory =>
    have habreast : CompileM.Abreast c.visited [] c.visited := fun q => by
      rw [List.mem_nil_iff, false_or]
    have hdocument := CompileM.oblivious_document c.registry tree tree.size v directory none
      c.startConfig
    exact (hdocument.same habreast fun q hq _ hmem => nomatch h q hq hmem).1
  | file path =>
    rcases hpath : tree.canonicalPath path with fault | entry
    · simp only [perform, compileFile_of_error _ hpath]
    · -- the entry counts as come to in both runs, whether or not it had been come to before
      have habreast : CompileM.Abreast c.visited (c.renewed.comeTo entry).visited
          (c.comeTo entry).visited := fun q => by
        rw [mem_visited_comeTo, mem_visited_comeTo, renewed, List.mem_nil_iff, or_false]
      have hfile := CompileM.oblivious_fileWith tree
        (CompileM.oblivious_document c.registry tree tree.size) entry c.startConfig
      rw [perform, compileFile_of_ok _ hpath] at h
      rw [perform, perform, compileFile_of_ok _ hpath, compileFile_of_ok _ hpath]
      refine (hfile.same habreast fun q hq hnew hmem => hnew ?_).1
      have hentry := h q hq hmem
      rw [Call.ownFile?, hpath] at hentry
      exact mem_visited_comeTo.mpr (.inl (Option.some.inj hentry).symm)

/-- Every set of a call is of its own document or of a file that had not been come to. -/
theorem source_of_perform (c : Compiler) (tree : FileTree) (call : Call) {sets : List TestSet}
    (h : (c.perform tree call).1 = .ok sets) :
    ∀ s ∈ sets, ∀ q ∈ c.visited, s.source = some q → call.ownFile? tree = some q := by
  intro s hs q hq hsource
  cases call with
  | document v directory =>
    rcases CompileM.ownOrUnseen_document tree.size (Prod.ext h rfl) s hs with hown | hunseen
    · rw [hsource] at hown
      cases hown
    · obtain ⟨p, hp, hfresh⟩ := hunseen
      rw [hsource] at hp
      cases hp
      exact absurd hq hfresh
  | file path =>
    rcases hpath : tree.canonicalPath path with fault | entry
    · rw [perform, compileFile_of_error _ hpath] at h
      cases h
    · rw [perform, compileFile_of_ok _ hpath] at h
      obtain ⟨document, -, hdocument⟩ := CompileM.eq_ok_of_fileWith (Prod.ext h rfl)
      rw [Call.ownFile?, hpath]
      rcases CompileM.ownOrUnseen_document tree.size hdocument s hs with hown | hunseen
      · exact hown.symm.trans hsource
      · obtain ⟨p, hp, hfresh⟩ := hunseen
        rw [hsource] at hp
        cases hp
        exact absurd (mem_visited_comeTo.mpr (.inr hq)) hfresh

/-- **How far a call depends on the calls before it.**  It has the result of a new compiler unless
the new compiler comes to a file that those calls have come to, other than the entry of the call
itself.  The sets of such a file are left out. -/
theorem perform_after (c : Compiler) (history : List (FileTree × Call)) (tree : FileTree)
    (call : Call) :
    ((∀ q ∈ (c.renewed.perform tree call).2.visited, q ∈ (c.after history).visited →
        call.ownFile? tree = some q) →
      ((c.after history).perform tree call).1 = (c.renewed.perform tree call).1) ∧
    ∀ sets, ((c.after history).perform tree call).1 = .ok sets →
      ∀ s ∈ sets, ∀ q ∈ (c.after history).visited, s.source = some q →
        call.ownFile? tree = some q := by
  refine ⟨fun h => ?_, fun sets h => source_of_perform _ tree call h⟩
  rw [← c.renewed_after history] at h ⊢
  exact perform_eq_renewed _ tree call h

/-! ### The same call twice -/

/-- Two files that declare a step each. -/
def twoFiles : FileTree where
  root := "/r"
  nodes := [
    (["a.json"], asciiFile "[\x7b\"url\": \"http://h/a\"\x7d]"),
    (["b.json"], asciiFile "[\x7b\"url\": \"http://h/b\"\x7d]")]

/-- A document that imports one file. -/
def importing (name : String) : Call :=
  .document (.array [.object [("import", .string name)]]) "/r"

/-- The second of two equal calls leaves out what the first one imported. -/
theorem second_call_drops_import :
    let c : Compiler := { registry := .builtins }
    ((c.renewed.perform twoFiles (importing "b.json")).1.map
        fun sets => sets.map TestSet.source).toOption = some [some "/r/b.json"] ∧
      (((c.after [(twoFiles, importing "b.json")]).perform twoFiles (importing "b.json")).1.map
        fun sets => sets.map TestSet.source).toOption = some [] := by
  decide +kernel

/-- After a call that imported another file the result is that of a new compiler. -/
theorem other_call_keeps_import :
    let c : Compiler := { registry := .builtins }
    let used := c.after [(twoFiles, importing "a.json")]
    (∀ q ∈ (c.renewed.perform twoFiles (importing "b.json")).2.visited, q ∈ used.visited →
        (importing "b.json").ownFile? twoFiles = some q) ∧
      (used.perform twoFiles (importing "b.json")).1 =
        (c.renewed.perform twoFiles (importing "b.json")).1 ∧
      ∃ sets, (used.perform twoFiles (importing "b.json")).1 = .ok sets ∧
        ∀ s ∈ sets, s.source ≠ some "/r/a.json" := by
  intro c used
  have hvisited : (c.renewed.perform twoFiles (importing "b.json")).2.visited = ["/r/b.json"] := by
    decide +kernel
  have hused : used.visited = ["/r/a.json"] := by decide +kernel
  have hok : (used.perform twoFiles (importing "b.json")).1.toBool = true := by decide +kernel
  have h := perform_after c [(twoFiles, importing "a.json")] twoFiles (importing "b.json")
  have hapart : ∀ q ∈ (c.renewed.perform twoFiles (importing "b.json")).2.visited,
      q ∈ used.visited → (importing "b.json").ownFile? twoFiles = some q := by
    intro q hq hseen
    rw [hvisited, List.mem_singleton] at hq
    rw [hused, List.mem_singleton] at hseen
    exact absurd (hq.symm.trans hseen) (by decide)
  refine ⟨hapart, h.1 hapart, ?_⟩
  rcases hsets : (used.perform twoFiles (importing "b.json")).1 with e | sets
  · rw [hsets] at hok
    cases hok
  · refine ⟨sets, rfl, fun s hs hsource => ?_⟩
    have hentry := h.2 sets hsets s hs "/r/a.json" (hused ▸ List.mem_singleton.mpr rfl) hsource
    cases hentry

end Compiler

end HttpSuite
