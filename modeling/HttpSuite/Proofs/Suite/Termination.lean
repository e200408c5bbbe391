import HttpSuite.Proofs.Suite.Imports
import Mathlib.Computability.Partrec
import Mathlib.Data.Finset.Card
import Mathlib.Order.Filter.AtTopBot.Basic

/-!
# Compiling comes to an end

What a document imports comes from the files, so nothing in the documents at hand says that
compiling them ends.  `SessionM.document` is the compiler without a bound on how deep imports can be
nested, and `none` where the nesting never ends.  It also notes every document that it reads.

The main statement, `Compiler.terminates`, is that it ends for every document and every tree, from
whatever files have been come to before, with the very result of the compiler that has the bound,
and that no document has been read twice.

## What it is not to end

`SessionM.approximation` gives up, without a result, at some depth of nesting, and the unbounded
compiler has a result as soon as one approximation has.  Giving up is not the same as the bound of
`CompileM.document`, which takes what lies deeper to be empty: an approximation never makes up a
result.  So a deeper one only has more results, each step of the compiler is continuous
(`SessionM.Approaches`), and the unbounded compiler is the least one that compiles the imports of a
document as it compiles the document (`SessionM.document_eq`, `SessionM.document_below`).

## The measure

A file is read only when it is come to for the first time, and what can be read is a node of the
tree: the root is a directory.  So each file read takes one from the nodes that have not been come
to (`FileTree.unseen_lt`), and the bound allows for all of these (`SessionM.within_document`).
-/

namespace HttpSuite

/-! ## Without a bound -/

/-- The paths of the files that have been come to, and of those whose documents have been read, in
order. -/
structure Session where
  visited : List String
  read : List String

/-- Compiling that may not come to an end. -/
abbrev SessionM := ExceptT CompileError (StateT Session Option)

/-- How a document is compiled, given what a `DocumentCompiler` is given, where that may not come
to an end. -/
abbrev SessionCompiler :=
  (document : Value) → (directory : String) → (source : Option String) → Config →
    SessionM (List TestSet)

namespace SessionM

def ofExcept {α : Type} (e : Except CompileError α) : SessionM α :=
  match e with
  | .ok a => pure a
  | .error e => throw e

/-- The path without detours; a fault names the path as it was given. -/
def canonicalPath (tree : FileTree) (path : String) : SessionM String :=
  match tree.canonicalPath path with
  | .ok path => pure path
  | .error fault => throw (.fileRead path fault.message)

/-- Reads the document in a file. -/
def readDocument (tree : FileTree) (path : String) : SessionM Value := do
  modify fun s => { s with read := s.read ++ [path] }
  ofExcept (tree.document path)

/-- The file that a node imports.  There is none if it has been come to before, and from then on it
has. -/
def importTarget (tree : FileTree) (directory : String) (v : Value) : SessionM (Option String) := do
  match v with
  | .string path =>
    let path ← canonicalPath tree (Path.join directory path)
    if (← get).visited.contains path then return none
    modify fun s => { s with visited := path :: s.visited }
    return some path
  | _ => throw (.malformedNode (.importNotPath v))

/-- The nodes of a document. -/
def nodesOf : Value → SessionM (List Value)
  | .array list => pure list
  | .null => pure []
  | v => throw (.malformedNode (.documentNotList v))

/-- Compiles the document in a file. -/
def fileWith (inner : SessionCompiler) (tree : FileTree) (path : String) (config : Config) :
    SessionM (List TestSet) := do
  inner (← readDocument tree path) (Path.parent path) (some path) config

/-- Compiles the file of an import node, unless it has been come to before. -/
def importWith (inner : SessionCompiler) (tree : FileTree) (directory : String) (v : Value)
    (config : Config) : SessionM (List TestSet) := do
  match ← importTarget tree directory v with
  | none => return []
  | some path => fileWith inner tree path config

/-- The draft with one more node, an import compiled by `importSets`. -/
def addNode (r : Registry) (importSets : Value → Config → SessionM (List TestSet)) (d : Draft)
    (node : Value) : SessionM Draft := do
  let (key, v) ← ofExcept node.singleKey
  if key = "import" then
    let sets ← importSets v d.config
    return { d with imported := d.imported ++ sets }
  else ofExcept (d.addNode r key v)

/-- Compiles a document whose imports are compiled by `inner`. -/
def documentWith (r : Registry) (tree : FileTree) (inner : SessionCompiler) : SessionCompiler :=
  fun document directory source config => do
    let list ← nodesOf document
    let d ← list.foldlM (addNode r (importWith inner tree directory)) ⟨config, [], none, []⟩
    return d.sets source

/-- Compiles a document, but has no result where documents are nested so deep. -/
def approximation (r : Registry) (tree : FileTree) : Nat → SessionCompiler
  | 0 => fun _ _ _ _ => ExceptT.mk fun _ => none
  | depth + 1 => documentWith r tree (approximation r tree depth)

open Classical in
/-- Compiles a document, however deep its imports are nested. -/
noncomputable def document (r : Registry) (tree : FileTree) : SessionCompiler :=
  fun document directory source config => ExceptT.mk fun s =>
    (Nat.rfindOpt fun depth =>
      (approximation r tree depth document directory source config).run.run s).toOption

/-- Compiles the document in a file, which counts as come to. -/
noncomputable def compileFile (r : Registry) (tree : FileTree) (path : String) (config : Config) :
    SessionM (List TestSet) := do
  let path ← canonicalPath tree path
  modify fun s =>
    { s with visited := if s.visited.contains path then s.visited else path :: s.visited }
  fileWith (document r tree) tree path config

end SessionM

/-! ## The unbounded compiler as a limit -/

namespace SessionM

variable {α β : Type} {s : Session}

theorem run_run_bind (m : SessionM α) (f : α → SessionM β) (s : Session) :
    (m >>= f).run.run s =
      match m.run.run s with
      | some (.ok a, s') => (f a).run.run s'
      | some (.error e, s') => some (.error e, s')
      | none => none := by
  change (m.run.run s >>= fun p => (ExceptT.bindCont f p.1).run p.2) = _
  rcases m.run.run s with _ | ⟨_ | _, _⟩ <;> rfl

/-- Whatever `m` comes to, all but finitely many of `ms` come to. -/
def Approaches (ms : Nat → SessionM α) (m : SessionM α) : Prop :=
  ∀ s x, m.run.run s = some x → ∀ᶠ n in Filter.atTop, (ms n).run.run s = some x

namespace Approaches

variable {ms : Nat → SessionM α} {m m' : SessionM α}

theorem refl (m : SessionM α) : Approaches (fun _ => m) m :=
  fun _ _ h => .of_forall fun _ => h

theorem const_iff : Approaches (fun _ => m') m ↔
    ∀ s x, m.run.run s = some x → m'.run.run s = some x := by
  simp only [Approaches, Filter.eventually_const]

theorem bind {fs : Nat → α → SessionM β} {f : α → SessionM β} (hm : Approaches ms m)
    (hf : ∀ a, Approaches (fun n => fs n a) (f a)) :
    Approaches (fun n => ms n >>= fs n) (m >>= f) := by
  intro s x hx
  rw [run_run_bind] at hx
  rcases hrun : m.run.run s with _ | ⟨e | a, s'⟩ <;> rw [hrun] at hx
  · exact nomatch hx
  · filter_upwards [hm s _ hrun] with n hn
    rw [run_run_bind, hn]
    exact hx
  · filter_upwards [hm s _ hrun, hf a s' x hx] with n hn hn'
    rw [run_run_bind, hn]
    exact hn'

theorem foldlM {fs : Nat → β → α → SessionM β} {f : β → α → SessionM β}
    (hf : ∀ b a, Approaches (fun n => fs n b a) (f b a)) (list : List α) (b : β) :
    Approaches (fun n => list.foldlM (fs n) b) (list.foldlM f b) := by
  induction list generalizing b with
  | nil => exact refl _
  | cons a rest ih =>
    simp only [List.foldlM_cons]
    exact (hf b a).bind ih

variable {r : Registry} {tree : FileTree} {inners : Nat → SessionCompiler} {inner : SessionCompiler}

theorem importWith
    (h : ∀ v directory source config, Approaches (fun n => inners n v directory source config)
      (inner v directory source config)) (directory : String) (v : Value) (config : Config) :
    Approaches (fun n => SessionM.importWith (inners n) tree directory v config)
      (SessionM.importWith inner tree directory v config) := by
  refine (refl (importTarget tree directory v)).bind fun target => ?_
  cases target with
  | none => exact refl _
  | some path => exact (refl (readDocument tree path)).bind fun v => h v _ _ _

/-- Compiling one document more is continuous in how its imports are compiled. -/
theorem documentWith
    (h : ∀ v directory source config, Approaches (fun n => inners n v directory source config)
      (inner v directory source config)) (v : Value) (directory : String) (source : Option String)
    (config : Config) :
    Approaches (fun n => SessionM.documentWith r tree (inners n) v directory source config)
      (SessionM.documentWith r tree inner v directory source config) := by
  have hnode (d : Draft) (node : Value) : Approaches
      (fun n => addNode r (SessionM.importWith (inners n) tree directory) d node)
      (addNode r (SessionM.importWith inner tree directory) d node) := by
    refine (refl (ofExcept node.singleKey)).bind fun kv => ?_
    dsimp only
    split
    · exact (importWith h directory kv.2 d.config).bind fun sets => refl _
    · exact refl _
  exact (refl (nodesOf v)).bind fun list => (foldlM hnode list _).bind fun d => refl _

end Approaches

/-- Whatever `inner` comes to, `outer` comes to. -/
def Below (inner outer : SessionCompiler) : Prop :=
  ∀ v directory source config s x, (inner v directory source config).run.run s = some x →
    (outer v directory source config).run.run s = some x

variable {r : Registry} {tree : FileTree} {inner outer : SessionCompiler} {v : Value}
  {directory : String} {source : Option String} {config : Config}
  {x : Except CompileError (List TestSet) × Session}

theorem Below.documentWith (h : Below inner outer) :
    Below (documentWith r tree inner) (documentWith r tree outer) := by
  intro v directory source config
  have hconst : ∀ v directory source config, Approaches
      (fun _ => outer v directory source config) (inner v directory source config) :=
    fun v directory source config => Approaches.const_iff.mpr (h v directory source config)
  exact Approaches.const_iff.mp (Approaches.documentWith hconst v directory source config)

/-- What an approximation comes to, every deeper one comes to. -/
theorem approximation_below {m n : Nat} (hle : m ≤ n) :
    Below (approximation r tree m) (approximation r tree n) := by
  induction m generalizing n with
  | zero => exact fun _ _ _ _ _ _ h => nomatch h
  | succ m ih =>
    obtain ⟨n, rfl⟩ := Nat.exists_eq_add_of_le' hle
    exact (ih (Nat.le_add_left m n)).documentWith

open Classical in
theorem run_document_iff :
    (document r tree v directory source config).run.run s = some x ↔
      ∃ depth, (approximation r tree depth v directory source config).run.run s = some x :=
  Part.mem_toOption.trans
    (Nat.rfindOpt_mono fun hle h => approximation_below hle v directory source config s _ h)

theorem approaches_document (v : Value) (directory : String) (source : Option String)
    (config : Config) :
    Approaches (fun depth => approximation r tree depth v directory source config)
      (document r tree v directory source config) := by
  intro s x h
  obtain ⟨depth, hdepth⟩ := run_document_iff.mp h
  exact Filter.eventually_atTop.mpr
    ⟨depth, fun _ hle => approximation_below hle v directory source config s x hdepth⟩

/-- **The unbounded compiler is a fixed point**: it compiles the imports of a document itself. -/
theorem document_eq : document r tree = documentWith r tree (document r tree) := by
  funext v directory source config s
  refine Option.ext fun x => ⟨fun h => ?_, fun h => ?_⟩
  · obtain ⟨depth | depth, hdepth⟩ := run_document_iff.mp h
    · exact nomatch hdepth
    · have hbelow : Below (approximation r tree depth) (document r tree) :=
        fun v directory source config s x h => run_document_iff.mpr ⟨depth, h⟩
      exact hbelow.documentWith v directory source config s x hdepth
  · -- continuity: the result is reached with imports compiled by some approximation
    obtain ⟨depth, hdepth⟩ :=
      (Approaches.documentWith approaches_document v directory source config s x h).exists
    exact run_document_iff.mpr ⟨depth + 1, hdepth⟩

/-- **It is the least one**: it is below every compiler that compiles the imports of a document
itself. -/
theorem document_below (houter : outer = documentWith r tree outer) :
    Below (document r tree) outer := by
  have hall (depth : Nat) : Below (approximation r tree depth) outer := by
    induction depth with
    | zero => exact fun _ _ _ _ _ _ h => nomatch h
    | succ depth ih =>
      rw [houter]
      exact ih.documentWith
  intro v directory source config s x h
  obtain ⟨depth, hdepth⟩ := run_document_iff.mp h
  exact hall depth v directory source config s x hdepth

end SessionM

/-! ## What is left to come to -/

namespace FileTree

variable {tree : FileTree} {visited visited' : List String} {path : String}

/-- The number of nodes that have not been come to. -/
def unseen (tree : FileTree) (visited : List String) : Nat :=
  ((tree.nodes.map fun node => tree.pathOf node.1).toFinset \ visited.toFinset).card

theorem unseen_le_size (tree : FileTree) (visited : List String) :
    tree.unseen visited ≤ tree.size := by
  refine Nat.le_trans (Finset.card_le_card Finset.sdiff_subset) ?_
  have hle := List.toFinset_card_le (tree.nodes.map fun node => tree.pathOf node.1)
  rwa [List.length_map] at hle

theorem unseen_le (h : ∀ q ∈ visited, q ∈ visited') : tree.unseen visited' ≤ tree.unseen visited :=
  Finset.card_le_card (Finset.sdiff_subset_sdiff (Finset.Subset.refl _)
    fun q hq => List.mem_toFinset.mpr (h q (List.mem_toFinset.mp hq)))

/-- A node that is come to is one less to come to. -/
theorem unseen_lt (hpath : path ∈ tree.nodes.map fun node => tree.pathOf node.1)
    (hfresh : path ∉ visited) : tree.unseen (path :: visited) < tree.unseen visited := by
  refine Finset.card_lt_card (Finset.ssubset_iff_subset_ne.mpr ⟨?_, fun heq => ?_⟩)
  · exact Finset.sdiff_subset_sdiff (Finset.Subset.refl _)
      fun q hq => List.mem_toFinset.mpr (List.mem_cons_of_mem _ (List.mem_toFinset.mp hq))
  · have hmem : path ∈ (tree.nodes.map fun node => tree.pathOf node.1).toFinset \
        visited.toFinset :=
      Finset.mem_sdiff.mpr ⟨List.mem_toFinset.mpr hpath, mt List.mem_toFinset.mp hfresh⟩
    rw [← heq] at hmem
    exact (Finset.mem_sdiff.mp hmem).2 (List.mem_toFinset.mpr (List.mem_cons_self ..))

/-- The root is a directory and has no document. -/
theorem document_root_ne_ok (v : Value) : tree.document (tree.pathOf []) ≠ .ok v := by
  have hread : ∃ fault, tree.read (tree.pathOf []) = .error fault := by
    change ∃ fault, tree.read tree.root = .error fault
    unfold read locate
    split
    · exact ⟨_, rfl⟩
    · split
      · exact ⟨_, rfl⟩
      · rw [if_pos rfl]
        exact ⟨.isDirectory, rfl⟩
  obtain ⟨fault, hfault⟩ := hread
  rw [document, hfault]
  exact fun h => nomatch h

/-- What can be read is a node of the tree. -/
theorem mem_nodes_of_document {v : Value} (hpath : path ∈ tree.paths)
    (h : tree.document path = .ok v) : path ∈ tree.nodes.map fun node => tree.pathOf node.1 := by
  rcases List.mem_cons.mp hpath with rfl | hpath
  · exact absurd h (document_root_ne_ok v)
  · exact hpath

end FileTree

/-! ## One computation carries out the other -/

/-- Files whose documents are read on the way from one list of files come to to a later one: each
once, and none that had been come to before. -/
structure FirstReads (visited visited' new : List String) : Prop where
  nodup : new.Nodup
  fresh : ∀ q ∈ new, q ∉ visited
  counted : ∀ q ∈ new, q ∈ visited'
  grows : ∀ q ∈ visited, q ∈ visited'

namespace FirstReads

variable {visited visited₁ visited' new next : List String}

theorem refl (visited : List String) : FirstReads visited visited [] :=
  ⟨List.nodup_nil, fun _ h => (nomatch h), fun _ h => (nomatch h), fun _ h => h⟩

theorem trans (h : FirstReads visited visited₁ new) (h' : FirstReads visited₁ visited' next) :
    FirstReads visited visited' (new ++ next) := by
  have hdisjoint : ∀ q ∈ new, ∀ p ∈ next, q ≠ p := by
    rintro q hq _ hq' rfl
    exact h'.fresh q hq' (h.counted q hq)
  refine ⟨List.nodup_append.mpr ⟨h.nodup, h'.nodup, hdisjoint⟩, fun q hq => ?_, fun q hq => ?_,
    fun q hq => h'.grows q (h.grows q hq)⟩
  · rcases List.mem_append.mp hq with hq | hq
    · exact h.fresh q hq
    · exact fun hseen => h'.fresh q hq (h.grows q hseen)
  · rcases List.mem_append.mp hq with hq | hq
    · exact h'.grows q (h.counted q hq)
    · exact h'.counted q hq

/-- A file that is come to and then read. -/
theorem cons {path : String} (hpath : path ∉ visited)
    (h : FirstReads (path :: visited) visited' new) :
    FirstReads visited visited' (path :: new) := by
  refine ⟨List.nodup_cons.mpr ⟨fun hmem => h.fresh path hmem (List.mem_cons_self ..), h.nodup⟩,
    fun q hq => ?_, fun q hq => ?_, fun q hq => h.grows q (List.mem_cons_of_mem _ hq)⟩
  · rcases List.mem_cons.mp hq with rfl | hq
    · exact hpath
    · exact fun hseen => h.fresh q hq (List.mem_cons_of_mem _ hseen)
  · rcases List.mem_cons.mp hq with rfl | hq
    · exact h.grows q (List.mem_cons_self ..)
    · exact h.counted q hq

end FirstReads

namespace SessionM

variable {α β : Type} {m : SessionM α} {m' : CompileM α} {s : Session}

/-- From a session, `m` comes to an end, with what `m'` comes to and with first reads only. -/
def Carries (m : SessionM α) (m' : CompileM α) (s : Session) : Prop :=
  ∃ new, FirstReads s.visited (m'.run.run s.visited).2 new ∧
    m.run.run s = some ((m'.run.run s.visited).1, ⟨(m'.run.run s.visited).2, s.read ++ new⟩)

theorem carries_of_eq {a : Except CompileError α} (hm : m.run.run s = some (a, s))
    (hm' : m'.run.run s.visited = (a, s.visited)) : Carries m m' s := by
  refine ⟨[], ?_, ?_⟩
  · rw [hm']
    exact .refl _
  · rw [hm, hm', List.append_nil]

theorem Carries.bind {f : α → SessionM β} {f' : α → CompileM β} (hm : Carries m m' s)
    (hf : ∀ a s', (∀ q ∈ s.visited, q ∈ s'.visited) → Carries (f a) (f' a) s') :
    Carries (m >>= f) (m' >>= f') s := by
  obtain ⟨new, hnew, hrun⟩ := hm
  rcases hm' : m'.run.run s.visited with ⟨e | a, visited⟩
  · rw [hm'] at hnew hrun
    refine ⟨new, ?_, ?_⟩
    · rw [ExceptT.run_run_bind, hm']
      exact hnew
    · rw [run_run_bind, hrun, ExceptT.run_run_bind, hm']
  · rw [hm'] at hnew hrun
    obtain ⟨next, hnext, hrun'⟩ := hf a ⟨visited, s.read ++ new⟩ hnew.grows
    refine ⟨new ++ next, ?_, ?_⟩
    · rw [ExceptT.run_run_bind, hm']
      exact hnew.trans hnext
    · rw [run_run_bind, hrun, ExceptT.run_run_bind, hm', ← List.append_assoc]
      exact hrun'

theorem Carries.pure (a : α) : Carries (Pure.pure a) (Pure.pure a) s := carries_of_eq rfl rfl

theorem carries_throw (e : CompileError) :
    Carries (throw e : SessionM α) (throw e : CompileM α) s := carries_of_eq rfl rfl

theorem carries_ofExcept (x : Except CompileError α) :
    Carries (ofExcept x) (CompileM.ofExcept x) s := by
  cases x with
  | ok a => exact .pure a
  | error e => exact carries_throw e

/-! ## Documents -/

variable {r : Registry} {tree : FileTree} {inner : DocumentCompiler} {room : Nat}

/-- Compiling with `inner` carries out documents where less than `room` is left to come to. -/
def Within (r : Registry) (tree : FileTree) (inner : DocumentCompiler) (room : Nat) : Prop :=
  ∀ v directory source config s, tree.unseen s.visited < room →
    Carries (document r tree v directory source config) (inner v directory source config) s

/-- **A file that has just been come to** is read, and then its document is compiled. -/
theorem run_fileWith (hinner : Within r tree inner room) {path : String} (config : Config)
    {visited : List String} (read : List String)
    (hroom : ∀ v, tree.document path = .ok v → tree.unseen visited < room) :
    ∃ new, FirstReads visited
        ((CompileM.fileWith inner tree path config).run.run visited).2 new ∧
      (fileWith (document r tree) tree path config).run.run ⟨visited, read⟩ =
        some (((CompileM.fileWith inner tree path config).run.run visited).1,
          ⟨((CompileM.fileWith inner tree path config).run.run visited).2,
            read ++ path :: new⟩) := by
  have hread : (readDocument tree path).run.run ⟨visited, read⟩ =
      (ofExcept (tree.document path)).run.run ⟨visited, read ++ [path]⟩ := rfl
  rw [fileWith, CompileM.fileWith]
  cases hdocument : tree.document path with
  | error e =>
    refine ⟨[], .refl _, ?_⟩
    rw [run_run_bind, hread, hdocument]
    rfl
  | ok v =>
    obtain ⟨new, hnew, hrun⟩ := hinner v (Path.parent path) (some path) config
      ⟨visited, read ++ [path]⟩ (hroom v hdocument)
    refine ⟨new, hnew, ?_⟩
    rw [run_run_bind, hread, hdocument]
    -- the file itself is read before all that its document imports
    rw [List.append_assoc] at hrun
    exact hrun

section Import

variable {directory name path : String}

theorem run_importWith_of_error {fault : FileFault}
    (h : tree.canonicalPath (Path.join directory name) = .error fault) (config : Config) :
    (importWith (document r tree) tree directory (.string name) config).run.run s =
      some (.error (.fileRead (Path.join directory name) fault.message), s) := by
  simp only [importWith, importTarget, canonicalPath, h]
  rfl

theorem run_importTarget_of_ok (h : tree.canonicalPath (Path.join directory name) = .ok path) :
    (importTarget tree directory (.string name)).run.run s =
      some (if s.visited.contains path then (.ok none, s)
        else (.ok (some path), ⟨path :: s.visited, s.read⟩)) := by
  simp only [importTarget, canonicalPath, h]
  change (if s.visited.contains path then _ else _ : SessionM (Option String)).run.run s = _
  split <;> rfl

theorem run_importWith_of_mem (h : tree.canonicalPath (Path.join directory name) = .ok path)
    (hseen : path ∈ s.visited) (config : Config) :
    (importWith (document r tree) tree directory (.string name) config).run.run s =
      some (.ok [], s) := by
  rw [importWith, run_run_bind, run_importTarget_of_ok h,
    if_pos (List.contains_iff_mem.mpr hseen)]
  rfl

theorem run_importWith_of_notMem (h : tree.canonicalPath (Path.join directory name) = .ok path)
    (hfresh : path ∉ s.visited) (config : Config) :
    (importWith (document r tree) tree directory (.string name) config).run.run s =
      (fileWith (document r tree) tree path config).run.run ⟨path :: s.visited, s.read⟩ := by
  rw [importWith, run_run_bind, run_importTarget_of_ok h,
    if_neg (mt List.contains_iff_mem.mp hfresh)]

/-- An import reads a file that is come to for the first time, and nothing otherwise. -/
theorem carries_importWith (hinner : Within r tree inner room) (directory : String) (v : Value)
    (config : Config) (hroom : tree.unseen s.visited ≤ room) :
    Carries (importWith (document r tree) tree directory v config)
      (CompileM.importWith inner tree directory v config) s := by
  cases v with
  | string name =>
    rcases hpath : tree.canonicalPath (Path.join directory name) with fault | path
    · exact carries_of_eq (run_importWith_of_error hpath config)
        (CompileM.run_importWith_of_error hpath config)
    by_cases hseen : path ∈ s.visited
    · exact carries_of_eq (run_importWith_of_mem hpath hseen config)
        (CompileM.run_importWith_of_mem hpath hseen config)
    · have hroom' : ∀ v, tree.document path = .ok v → tree.unseen (path :: s.visited) < room :=
        fun v hv => Nat.lt_of_lt_of_le (FileTree.unseen_lt (FileTree.mem_nodes_of_document
          (FileTree.canonicalPath_mem_paths hpath) hv) hseen) hroom
      obtain ⟨new, hnew, hrun⟩ := run_fileWith hinner config s.read hroom'
      rw [Carries, run_importWith_of_notMem hpath hseen,
        CompileM.run_importWith_of_notMem hpath hseen]
      exact ⟨path :: new, hnew.cons hseen, hrun⟩
  | _ => exact carries_of_eq rfl rfl

end Import

theorem carries_nodes (hinner : Within r tree inner room) (directory : String)
    (list : List Value) (d : Draft) (hroom : tree.unseen s.visited ≤ room) :
    Carries (list.foldlM (addNode r (importWith (document r tree) tree directory)) d)
      (CompileM.nodes r (CompileM.importWith inner tree directory) list d) s := by
  induction list generalizing d s with
  | nil => exact .pure d
  | cons node rest ih =>
    rw [List.foldlM_cons, addNode, CompileM.nodes, bind_assoc]
    refine (carries_ofExcept node.singleKey).bind fun kv s₁ h₁ => ?_
    have hroom₁ := Nat.le_trans (FileTree.unseen_le h₁) hroom
    dsimp only
    split
    · rw [bind_assoc]
      refine (carries_importWith hinner directory kv.2 d.config hroom₁).bind fun sets s₂ h₂ => ?_
      rw [pure_bind]
      exact ih _ (Nat.le_trans (FileTree.unseen_le h₂) hroom₁)
    · refine (carries_ofExcept (d.addNode r kv.1 kv.2)).bind fun d₂ s₂ h₂ => ?_
      exact ih _ (Nat.le_trans (FileTree.unseen_le h₂) hroom₁)

/-- One more level of nesting makes room for one more file. -/
theorem Within.documentWith (hinner : Within r tree inner room) :
    Within r tree (CompileM.documentWith r tree inner) (room + 1) := by
  intro v directory source config s hroom
  have hlist (list : List Value) : Carries
      (list.foldlM (addNode r (importWith (document r tree) tree directory))
          ⟨config, [], none, []⟩ >>= fun d =>
        (Pure.pure (d.sets source) : SessionM (List TestSet)))
      (CompileM.nodes r (CompileM.importWith inner tree directory) list ⟨config, [], none, []⟩ >>=
        fun d => Pure.pure (d.sets source)) s :=
    (carries_nodes hinner directory list _ (Nat.le_of_lt_succ hroom)).bind fun _ _ _ => .pure _
  rw [document_eq]
  cases v with
  | array list => exact hlist list
  | null => exact hlist []
  | _ => exact carries_throw _

/-- **The bound is enough**: there is room for all files of the tree. -/
theorem within_document (depth : Nat) :
    Within r tree (CompileM.document r tree depth) (depth + 1) := by
  induction depth with
  | zero => exact Within.documentWith fun _ _ _ _ _ hroom => absurd hroom (Nat.not_lt_zero _)
  | succ depth ih => exact ih.documentWith

end SessionM

/-! ## Calls of a compiler -/

namespace Compiler

/-- What a call without a bound comes to, if it comes to an end, and the files whose documents it
reads. -/
def runUnbounded (c : Compiler) (m : SessionM (List TestSet)) :
    Option ((Except CompileError (List TestSet) × Compiler) × List String) :=
  (m.run.run ⟨c.visited, []⟩).map fun (outcome, s) =>
    ((outcome, { c with visited := s.visited }), s.read)

variable (c : Compiler) (tree : FileTree)

theorem room_enough (visited : List String) : tree.unseen visited < tree.size + 1 :=
  Nat.lt_succ_of_le (tree.unseen_le_size visited)

theorem terminates_compile (document : Value) (directory : String) :
    ∃ read, read.Nodup ∧
      c.runUnbounded (SessionM.document c.registry tree document directory none c.startConfig) =
        some (c.compile tree document directory, read) := by
  obtain ⟨read, hread, hrun⟩ := SessionM.within_document tree.size document directory none
    c.startConfig ⟨c.visited, []⟩ (room_enough tree c.visited)
  refine ⟨read, hread.nodup, ?_⟩
  rw [runUnbounded, hrun]
  rfl

theorem terminates_compileFile (path : String) :
    ∃ read, read.Nodup ∧
      c.runUnbounded (SessionM.compileFile c.registry tree path c.startConfig) =
        some (c.compileFile tree path, read) := by
  rcases hpath : tree.canonicalPath path with fault | entry
  · refine ⟨[], List.nodup_nil, ?_⟩
    rw [c.compileFile_of_error hpath]
    simp only [runUnbounded, SessionM.compileFile, SessionM.canonicalPath, hpath]
    rfl
  · have hentry : entry ∈ (c.comeTo entry).visited := mem_visited_comeTo.mpr (.inl rfl)
    obtain ⟨new, hnew, hrun⟩ := SessionM.run_fileWith (SessionM.within_document tree.size)
      c.startConfig [] fun _ _ => room_enough tree (c.comeTo entry).visited
    have hsession : (SessionM.compileFile c.registry tree path c.startConfig).run.run
        ⟨c.visited, []⟩ =
        (SessionM.fileWith (SessionM.document c.registry tree) tree entry c.startConfig).run.run
          ⟨(c.comeTo entry).visited, []⟩ := by
      simp only [SessionM.compileFile, SessionM.canonicalPath, hpath]
      rfl
    have hnodup : (entry :: new).Nodup :=
      List.nodup_cons.mpr ⟨fun hmem => hnew.fresh entry hmem hentry, hnew.nodup⟩
    refine ⟨entry :: new, hnodup, ?_⟩
    rw [runUnbounded, hsession, hrun, c.compileFile_of_ok hpath]
    rfl

/-- **Compiling comes to an end** for every document, every tree and whatever has been come to
before.  Without a bound on the nesting of imports both calls come to what they come to with the
bound, and neither reads the document in a file twice. -/
theorem terminates :
    (∀ document directory, ∃ read, read.Nodup ∧
      c.runUnbounded (SessionM.document c.registry tree document directory none c.startConfig) =
        some (c.compile tree document directory, read)) ∧
    ∀ path, ∃ read, read.Nodup ∧
      c.runUnbounded (SessionM.compileFile c.registry tree path c.startConfig) =
        some (c.compileFile tree path, read) :=
  ⟨c.terminates_compile tree, c.terminates_compileFile tree⟩

end Compiler

end HttpSuite
