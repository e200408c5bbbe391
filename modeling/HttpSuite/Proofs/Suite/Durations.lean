import HttpSuite.Proofs.Suite.Seconds
import HttpSuite.Proofs.Suite.Termination
import HttpSuite.Settings.Suite

/-!
# Numbers of seconds that no duration holds

Compiling gives test sets or an error, and there is one end that is neither: a number of seconds
that is too large for a duration.  `Compiler.calm_of_fits` says when that can be.  It happens only
where such a number stands in the document, in a file that the compiler has come to or in the
settings, and it stands in the way of any test set.

The walk through a document and its imports adds nothing to what holds of the nodes: what is asked
for is read off the documents (`Value.secondsAsked`), and the documents that are read are those of
the files that the compiler has come to.
-/

namespace HttpSuite

/-! ## What is asked for -/

/-- The number of seconds that a node of a document asks for. -/
def Value.secondsAsked? (r : Registry) (node : Value) : Option Binary64 := do
  let (key, v) ← node.singleKey.toOption
  Draft.secondsOf r key v

/-- The numbers of seconds that the nodes of a document ask for. -/
def Value.secondsAsked (r : Registry) (document : Value) : List Binary64 :=
  (document.nodes?.getD []).filterMap (secondsAsked? r)

/-- There is a duration for every number that a document asks for. -/
def Value.Fits (r : Registry) (document : Value) : Prop :=
  ∀ x ∈ document.secondsAsked r, Duration.Fits x

instance (r : Registry) (document : Value) : Decidable (document.Fits r) :=
  inferInstanceAs (Decidable (∀ x ∈ document.secondsAsked r, Duration.Fits x))

/-- There is a duration for every number that the document in a file asks for. -/
def FileTree.Fits (tree : FileTree) (r : Registry) (path : String) : Prop :=
  ∀ document, tree.document path = .ok document → document.Fits r

/-- The same of all files that are come to between two lists of files come to. -/
def FileTree.FitsNew (tree : FileTree) (r : Registry) (visited visited' : List String) : Prop :=
  ∀ path ∈ visited', path ∉ visited → tree.Fits r path

/-- There is a duration for the timeout of the settings. -/
def Settings.Fits (s : Settings) : Prop := ∀ x, s.timeout = some (.finite x) → Duration.Fits x

namespace CompileM

variable {α β : Type} {r : Registry} {tree : FileTree} {room : Nat} {p q : Prop}

/-- A part of a compilation where `p` says that the numbers in the document at hand fit.  It is calm
if they do and so do those in the files that it comes to.  With less than `room` left to come to, it
succeeds only then. -/
structure Minds (r : Registry) (tree : FileTree) (room : Nat) (p : Prop) (m : CompileM α) :
    Prop where
  grows : ∀ {visited : List String}, ∀ path ∈ visited, path ∈ (m.run.run visited).2
  calm : ∀ {visited : List String}, p → tree.FitsNew r visited (m.run.run visited).2 →
    Calm (m.run.run visited).1
  fits : ∀ {visited visited' : List String} {a : α}, tree.unseen visited < room →
    m.run.run visited = (.ok a, visited') → p ∧ tree.FitsNew r visited visited'

theorem minds_ofExcept {x : Except CompileError α} (hcalm : p → Calm x)
    (hfits : ∀ a, x = .ok a → p) : Minds r tree room p (ofExcept x) := by
  cases x with
  | ok a =>
    refine ⟨fun path h => h, fun _ _ => .ok a, fun _ h => ?_⟩
    cases h
    exact ⟨hfits a rfl, fun path hpath hnew => absurd hpath hnew⟩
  | error e => exact ⟨fun path h => h, fun hp _ => (hcalm hp).of_error, fun _ h => nomatch h⟩

theorem minds_pure (a : α) : Minds r tree room True (pure a : CompileM α) :=
  minds_ofExcept (x := .ok a) (fun _ => .ok a) fun _ _ => trivial

theorem minds_throw {e : CompileError} (h : e ≠ .tooLong) :
    Minds r tree room True (throw e : CompileM α) :=
  minds_ofExcept (x := .error e) (fun _ heq => h (Except.error.inj heq)) fun _ h => nomatch h

theorem Minds.iff {m : CompileM α} (h : Minds r tree room p m) (hiff : p ↔ q) :
    Minds r tree room q m := propext hiff ▸ h

theorem Minds.bind {m : CompileM α} {f : α → CompileM β} (hm : Minds r tree room p m)
    (hf : ∀ a, Minds r tree room q (f a)) : Minds r tree room (p ∧ q) (m >>= f) where
  grows := fun {visited} path hpath => by
    have hfirst := hm.grows path hpath
    rw [ExceptT.run_run_bind]
    rcases hrun : m.run.run visited with ⟨e | a, visited₁⟩
    · rwa [hrun] at hfirst
    · rw [hrun] at hfirst
      exact (hf a).grows path hfirst
  calm := fun {visited} hown hfits => by
    rw [ExceptT.run_run_bind] at hfits ⊢
    have hfirst : _ → Calm (m.run.run visited).1 := hm.calm hown.1
    have hkept : ∀ path ∈ visited, path ∈ (m.run.run visited).2 := hm.grows
    rcases hrun : m.run.run visited with ⟨e | a, visited₁⟩
    · rw [hrun] at hfits hfirst
      exact (hfirst hfits).of_error
    · rw [hrun] at hfits hkept
      exact (hf a).calm hown.2 fun path hpath hnew =>
        hfits path hpath fun hmem => hnew (hkept path hmem)
  fits := fun {visited visited' b} hroom h => by
    obtain ⟨a, visited₁, hfirst, hsecond⟩ := ExceptT.eq_ok_of_bind h
    obtain ⟨hp, hnew⟩ := hm.fits hroom hfirst
    have hkept : ∀ path ∈ visited, path ∈ (m.run.run visited).2 := hm.grows
    rw [hfirst] at hkept
    have hroom₁ := Nat.lt_of_le_of_lt (FileTree.unseen_le hkept) hroom
    obtain ⟨hq, hnew'⟩ := (hf a).fits hroom₁ hsecond
    refine ⟨⟨hp, hq⟩, fun path hpath hfresh => ?_⟩
    by_cases hmem : path ∈ visited₁
    · exact hnew path hmem hfresh
    · exact hnew' path hpath hmem

/-! ## Documents and imports -/

/-- Documents compiled by `inner` are minded. -/
def MindsAll (r : Registry) (tree : FileTree) (room : Nat) (inner : DocumentCompiler) : Prop :=
  ∀ v directory source config, Minds r tree room (v.Fits r) (inner v directory source config)

variable {inner : DocumentCompiler}

theorem calm_document (tree : FileTree) (path : String) : Calm (tree.document path) := by
  unfold FileTree.document
  split
  · exact fun h => nomatch h
  · dsimp only
    split
    · exact .ok _
    · exact fun h => nomatch h

/-- The file of a document minds what the document asks for. -/
theorem minds_fileWith (hinner : MindsAll r tree room inner) (path : String) (config : Config) :
    Minds r tree room (tree.Fits r path) (fileWith inner tree path config) := by
  unfold fileWith
  cases hv : tree.document path with
  | error e =>
    have hcalm := calm_document tree path
    rw [hv] at hcalm
    have hfits : True ↔ tree.Fits r path := by
      refine ⟨fun _ v h => ?_, fun _ => trivial⟩
      rw [hv] at h
      cases h
    exact (minds_throw fun he => hcalm (congrArg _ he)).iff hfits
  | ok v =>
    have hfits : v.Fits r ↔ tree.Fits r path := by
      refine ⟨fun h w hw => ?_, fun h => h v hv⟩
      rw [hv] at hw
      cases hw
      exact h
    exact (hinner v _ _ _).iff hfits

/-- **An import** minds the file that it comes to, which takes one from what is left to come to. -/
theorem minds_importWith (hinner : MindsAll r tree room inner) (directory : String) (v : Value)
    (config : Config) :
    Minds r tree (room + 1) True (importWith inner tree directory v config) := by
  cases v with
  | string name =>
    rcases hpath : tree.canonicalPath (Path.join directory name) with fault | path
    · have hrun : importWith inner tree directory (.string name) config =
          throw (.fileRead (Path.join directory name) fault.message) := by
        funext visited
        exact run_importWith_of_error hpath config
      rw [hrun]
      exact minds_throw fun h => nomatch h
    have hfile := minds_fileWith hinner path config
    refine ⟨fun {visited} q hq => ?_, fun {visited} _ hfits => ?_,
      fun {visited visited' sets} hroom h => ?_⟩
    · by_cases hseen : path ∈ visited
      · rwa [run_importWith_of_mem hpath hseen]
      · rw [run_importWith_of_notMem hpath hseen]
        exact hfile.grows q (List.mem_cons_of_mem _ hq)
    · by_cases hseen : path ∈ visited
      · rw [run_importWith_of_mem hpath hseen]
        exact .ok []
      · rw [run_importWith_of_notMem hpath hseen] at hfits ⊢
        have hcomeTo : path ∈ ((fileWith inner tree path config).run.run (path :: visited)).2 :=
          hfile.grows path (List.mem_cons_self ..)
        exact hfile.calm (hfits path hcomeTo hseen) fun q hq hnew =>
          hfits q hq fun hmem => hnew (List.mem_cons_of_mem _ hmem)
    · refine ⟨trivial, fun q hq hnew => ?_⟩
      by_cases hseen : path ∈ visited
      · rw [run_importWith_of_mem hpath hseen] at h
        cases h
        exact absurd hq hnew
      · rw [run_importWith_of_notMem hpath hseen] at h
        -- the file could be read, so it is a node that had not been come to
        obtain ⟨document, _, hread, -⟩ := ExceptT.eq_ok_of_bind h
        have hnode := FileTree.mem_nodes_of_document (FileTree.canonicalPath_mem_paths hpath)
          (eq_ok_of_ofExcept hread).1
        have hless := FileTree.unseen_lt hnode hseen
        obtain ⟨hown, hfits⟩ := hfile.fits (by omega) h
        by_cases heq : q = path
        · exact heq ▸ hown
        · exact hfits q hq fun hmem => (List.mem_cons.mp hmem).elim heq hnew
  | _ => exact minds_throw fun h => nomatch h

/-- The nodes of a document mind what they ask for. -/
theorem minds_nodes {importSets : Value → Config → CompileM (List TestSet)}
    (himport : ∀ v config, Minds r tree room True (importSets v config)) (list : List Value)
    (d : Draft) :
    Minds r tree room (∀ x ∈ list.filterMap (Value.secondsAsked? r), Duration.Fits x)
      (nodes r importSets list d) := by
  induction list generalizing d with
  | nil =>
    refine (minds_pure d).iff ⟨fun _ x hx => ?_, fun _ => trivial⟩
    cases hx
  | cons node rest ih =>
    rw [nodes]
    cases hnode : node.singleKey with
    | error e =>
      have hcalm := node.calm_singleKey
      rw [hnode] at hcalm
      refine minds_ofExcept (x := .error e) (fun _ => hcalm.of_error) fun _ h => ?_
      cases h
    | ok kv =>
      obtain ⟨key, v⟩ := kv
      have hasked : node.secondsAsked? r = Draft.secondsOf r key v := by
        rw [Value.secondsAsked?, hnode]
        rfl
      have hboth : ((∀ x ∈ Draft.secondsOf r key v, Duration.Fits x) ∧
            ∀ x ∈ rest.filterMap (Value.secondsAsked? r), Duration.Fits x) ↔
          ∀ x ∈ (node :: rest).filterMap (Value.secondsAsked? r), Duration.Fits x := by
        rw [List.filterMap_cons, hasked]
        cases Draft.secondsOf r key v <;> simp
      refine Minds.iff ?_ hboth
      change Minds r tree room _ (if key = "import" then _ else _ : CompileM Draft)
      split
      · rename_i himported
        have hnone : True ↔ ∀ x ∈ Draft.secondsOf r key v, Duration.Fits x := by
          rw [himported]
          refine ⟨fun _ x hx => ?_, fun _ => trivial⟩
          cases hx
        exact ((himport v d.config).iff hnone).bind fun sets => ih _
      · exact (minds_ofExcept Draft.calm_addNode fun _ => Draft.fits_of_addNode).bind fun d => ih d

theorem mindsAll_documentWith (hinner : MindsAll r tree room inner) :
    MindsAll r tree (room + 1) (documentWith r tree inner) := by
  intro v directory source config
  have hlist (list : List Value) (hlist : v.nodes?.getD [] = list) :
      Minds r tree (room + 1) (v.Fits r)
        (nodes r (importWith inner tree directory) list ⟨config, [], none, []⟩ >>= fun d =>
          pure (d.sets source)) := by
    refine ((minds_nodes (minds_importWith hinner directory) list _).bind fun d =>
      minds_pure _).iff ?_
    rw [and_true, Value.Fits, Value.secondsAsked, hlist]
  have hempty (got : Value) (hgot : v.nodes?.getD [] = []) : Minds r tree (room + 1) (v.Fits r)
      (throw (.malformedNode (.documentNotList got)) : CompileM (List TestSet)) := by
    have hthrow : Minds r tree (room + 1) True
        (throw (.malformedNode (.documentNotList got)) : CompileM (List TestSet)) :=
      minds_throw fun h => nomatch h
    refine hthrow.iff ?_
    rw [Value.Fits, Value.secondsAsked, hgot]
    exact ⟨fun _ x hx => (nomatch hx), fun _ => trivial⟩
  cases v with
  | array list => exact hlist list rfl
  | null => exact hlist [] rfl
  | _ => exact hempty _ rfl

theorem mindsAll_document (depth : Nat) : MindsAll r tree (depth + 1) (document r tree depth) := by
  induction depth with
  | zero =>
    refine mindsAll_documentWith fun v directory source config => ⟨fun path h => h, ?_, ?_⟩
    · exact fun _ _ => .ok []
    · exact fun hroom _ => absurd hroom (Nat.not_lt_zero _)
  | succ depth ih => exact mindsAll_documentWith ih

end CompileM

/-! ## Compilers and settings -/

namespace Settings

variable {s : Settings}

theorem calm_forcedTimeout (h : s.Fits) : Calm s.forcedTimeout := by
  unfold forcedTimeout
  split
  · rename_i x hx
    split
    · exact .ok _
    · rename_i hsign
      rw [not_or, Bool.not_eq_true] at hsign
      exact (Duration.calm_ofSeconds (by rw [hsign.1]; rfl) (h x hx)).map _
  · exact .ok _

/-- A timeout is only forced if it fits. -/
theorem fits_of_forcedTimeout {timeout : Option Duration} (h : s.forcedTimeout = .ok timeout) :
    s.Fits := by
  intro x hx hneg
  rw [forcedTimeout, hx] at h
  dsimp only at h
  split at h
  · rename_i hsign
    exact Duration.isSome_of_isZero (hsign.resolve_left (by rw [hneg]; exact Bool.false_ne_true))
  · obtain ⟨d, hd, -⟩ := Except.eq_ok_of_map h
    exact Duration.fits_of_ofSeconds hd hneg

theorem calm_applyTo (h : s.Fits) (c : Config) : Calm (s.applyTo c) :=
  (calm_forcedTimeout h).bind fun _ _ => .ok _

theorem calm_applyToSets (h : s.Fits) (sets : List TestSet) : Calm (s.applyToSets sets) := by
  refine .mapM fun set => (calm_applyTo h set.config).bind fun _ _ => ?_
  refine Calm.bind (.mapM fun step => ?_) fun _ _ => .ok _
  cases step with
  | test t c => exact (calm_applyTo h c).map _
  | operation op => exact .ok _
  | configure change => exact .ok _

theorem fits_of_applyToSets {sets sets' : List TestSet} (h : s.applyToSets sets = .ok sets')
    (hne : sets' ≠ []) : s.Fits := by
  obtain ⟨set', hset'⟩ := List.exists_mem_of_ne_nil sets' hne
  obtain ⟨set, -, hset⟩ := exists_of_mem_mapM h hset'
  obtain ⟨config, hconfig, -⟩ := Except.eq_ok_of_bind hset
  obtain ⟨timeout, htimeout, -⟩ := Except.eq_ok_of_bind hconfig
  exact fits_of_forcedTimeout htimeout

end Settings

namespace Compiler

variable (c : Compiler) (tree : FileTree) (document : Value) (directory path : String)

/-- There are durations for the numbers in a document and in the files that it comes to. -/
def DocumentFits : Prop :=
  document.Fits c.registry ∧
    tree.FitsNew c.registry c.visited (c.compile tree document directory).2.visited

/-- There are durations for the numbers in a file and in the files that it comes to. -/
def FileFits : Prop :=
  (∀ entry, tree.canonicalPath path = .ok entry → tree.Fits c.registry entry) ∧
    tree.FitsNew c.registry c.visited (c.compileFile tree path).2.visited

variable {c tree document directory path}

theorem calm_compile (h : c.DocumentFits tree document directory) :
    Calm (c.compile tree document directory).1 :=
  (CompileM.mindsAll_document tree.size document directory none c.startConfig).calm h.1 h.2

theorem fits_of_compile {sets : List TestSet} {c' : Compiler}
    (h : c.compile tree document directory = (.ok sets, c')) :
    c.DocumentFits tree document directory := by
  rw [DocumentFits, h]
  exact (CompileM.mindsAll_document tree.size document directory none c.startConfig).fits
    (Nat.lt_succ_of_le (tree.unseen_le_size c.visited)) (run_run_of_run h)

theorem minds_entry (c : Compiler) (tree : FileTree) (entry : String) :
    CompileM.Minds c.registry tree (tree.size + 1) (tree.Fits c.registry entry)
      (CompileM.fileWith (CompileM.document c.registry tree tree.size) tree entry c.startConfig) :=
  CompileM.minds_fileWith (CompileM.mindsAll_document tree.size) entry c.startConfig

theorem calm_compileFile (h : c.FileFits tree path) : Calm (c.compileFile tree path).1 := by
  obtain ⟨hentry, hfiles⟩ := h
  cases hpath : tree.canonicalPath path with
  | error fault =>
    rw [c.compileFile_of_error hpath]
    exact fun h => nomatch h
  | ok entry =>
    rw [c.compileFile_of_ok hpath] at hfiles ⊢
    exact (minds_entry c tree entry).calm (hentry entry hpath) fun q hq hnew =>
      hfiles q hq fun hmem => hnew (mem_visited_comeTo.mpr (.inr hmem))

theorem fits_of_compileFile {sets : List TestSet} {c' : Compiler}
    (h : c.compileFile tree path = (.ok sets, c')) : c.FileFits tree path := by
  rw [FileFits, h]
  cases hpath : tree.canonicalPath path with
  | error fault =>
    rw [c.compileFile_of_error hpath] at h
    cases h
  | ok entry =>
    rw [c.compileFile_of_ok hpath] at h
    obtain ⟨hentry, hfiles⟩ := (minds_entry c tree entry).fits
      (Nat.lt_succ_of_le (tree.unseen_le_size _)) (run_run_of_run h)
    refine ⟨fun q hq => Except.ok.inj hq ▸ hentry, fun q hq hnew => ?_⟩
    by_cases heq : q = entry
    · exact heq ▸ hentry
    · exact hfiles q hq fun hmem => (mem_visited_comeTo.mp hmem).elim heq hnew

end Compiler

namespace Settings

/-- The compiler of a suite. -/
def compiler (s : Settings) (r : Registry) : Compiler :=
  { registry := r, bindings := s.initialVariables }

/-- There are durations for the numbers in the files of a suite and, if it has a test set, for the
timeout of the settings. -/
def SuiteFits (s : Settings) (r : Registry) (tree : FileTree) (path : String) : Prop :=
  (s.compiler r).FileFits tree path ∧
    (((s.compiler r).compileFile tree path).1 = .ok [] ∨ s.Fits)

variable {s : Settings} {r : Registry} {tree : FileTree} {path : String}

theorem compileSuite_ne_tooLong (h : s.SuiteFits r tree path) :
    s.compileSuite r tree path ≠ .error (.compile .tooLong) := by
  obtain ⟨hfiles, htimeout⟩ := h
  have hcalm := Compiler.calm_compileFile hfiles
  intro hsuite
  rcases Except.eq_error_of_bind hsuite with hcompile | ⟨sets, hsets, happly⟩
  · obtain ⟨e, he, heq⟩ := Except.eq_error_of_mapError hcompile
    cases heq
    exact hcalm he
  · obtain ⟨e, he, heq⟩ := Except.eq_error_of_mapError happly
    cases heq
    rcases htimeout with hnone | hfits
    · have hok := Except.eq_ok_of_mapError hsets
      rw [compiler] at hnone
      rw [hnone] at hok
      cases hok
      cases he
    · exact calm_applyToSets hfits sets he

theorem suiteFits_of_compileSuite {sets : List TestSet}
    (h : s.compileSuite r tree path = .ok sets) : s.SuiteFits r tree path := by
  obtain ⟨documents, hdocuments, h⟩ := Except.eq_ok_of_bind h
  have hok : ((s.compiler r).compileFile tree path).1 = .ok documents :=
    Except.eq_ok_of_mapError hdocuments
  refine ⟨Compiler.fits_of_compileFile (Prod.ext hok rfl), ?_⟩
  cases documents with
  | nil => exact .inl hok
  | cons document documents =>
    refine .inr (fits_of_applyToSets (Except.eq_ok_of_mapError h) ?_)
    rintro rfl
    have hsets := mapM_eq_ok_iff.mp (Except.eq_ok_of_mapError h)
    cases hsets

end Settings

/-- **Compiling ends with test sets or an error, but for numbers that no duration holds.**  A call
is calm if there are durations for the numbers that it comes to: those in its document, in the files
that the document comes to and, for a suite, in the settings.  And it returns test sets only then,
so no number that is too large is ever taken for a duration. -/
theorem Compiler.calm_of_fits (c : Compiler) (s : Settings) (tree : FileTree) (document : Value)
    (directory path : String) :
    (c.DocumentFits tree document directory → Calm (c.compile tree document directory).1) ∧
      (c.FileFits tree path → Calm (c.compileFile tree path).1) ∧
      (s.SuiteFits c.registry tree path →
        s.compileSuite c.registry tree path ≠ .error (.compile .tooLong)) ∧
      (∀ sets c', c.compile tree document directory = (.ok sets, c') →
        c.DocumentFits tree document directory) ∧
      (∀ sets c', c.compileFile tree path = (.ok sets, c') → c.FileFits tree path) ∧
      ∀ sets, s.compileSuite c.registry tree path = .ok sets → s.SuiteFits c.registry tree path :=
  ⟨calm_compile, calm_compileFile, Settings.compileSuite_ne_tooLong, fun _ _ => fits_of_compile,
    fun _ _ => fits_of_compileFile, fun _ => Settings.suiteFits_of_compileSuite⟩

/-- A document of a node and a test. -/
def withTest (node : Value) : Value := .array [node, .object [("url", .string "http://h/")]]

/-- A file of a document whose tests may take two seconds. -/
def twoSeconds : FileTree where
  root := "/r"
  nodes := [(["a.json"], Compiler.asciiFile
    "[\x7b\"config\": \x7b\"timeout\": 2\x7d\x7d, \x7b\"url\": \"http://h/\"\x7d]")]

/-- Two seconds, and five in the settings, are no trouble. -/
theorem Compiler.calm_twoSeconds :
    let c : Compiler := { registry := .builtins }
    let s : Settings := { timeout := some (.finite (Binary64.ofInt 5)) }
    let document := withTest (.object [("config", .object [("timeout", .int 2)])])
    document.secondsAsked .builtins = [Binary64.ofInt 2] ∧
      (c.DocumentFits twoSeconds document "/r" ∧ Calm (c.compile twoSeconds document "/r").1) ∧
      (c.FileFits twoSeconds "/r/a.json" ∧ Calm (c.compileFile twoSeconds "/r/a.json").1) ∧
      s.SuiteFits .builtins twoSeconds "/r/a.json" ∧
      s.compileSuite .builtins twoSeconds "/r/a.json" ≠ .error (.compile .tooLong) := by
  intro c s document
  have hdocument : (c.compile twoSeconds document "/r").1.toBool = true := by decide +kernel
  have hfile : (c.compileFile twoSeconds "/r/a.json").1.toBool = true := by decide +kernel
  have hsuite : (s.compileSuite .builtins twoSeconds "/r/a.json").toBool = true := by
    decide +kernel
  obtain ⟨hcompile, hcompileFile, hcompileSuite, hfits, hfitsFile, hfitsSuite⟩ :=
    Compiler.calm_of_fits c s twoSeconds document "/r" "/r/a.json"
  refine ⟨by decide +kernel, ?_, ?_, ?_⟩
  · rcases h : c.compile twoSeconds document "/r" with ⟨e | sets, c'⟩
    · rw [h] at hdocument
      cases hdocument
    · have hall := hfits sets c' h
      rw [h] at hcompile
      exact ⟨hall, hcompile hall⟩
  · rcases h : c.compileFile twoSeconds "/r/a.json" with ⟨e | sets, c'⟩
    · rw [h] at hfile
      cases hfile
    · have hall := hfitsFile sets c' h
      rw [h] at hcompileFile
      exact ⟨hall, hcompileFile hall⟩
  · rcases h : s.compileSuite .builtins twoSeconds "/r/a.json" with e | sets
    · rw [h] at hsuite
      cases hsuite
    · have hall := hfitsSuite sets h
      exact ⟨hall, h ▸ hcompileSuite hall⟩

/-- A hundred quintillion, as a number of seconds more than a duration holds. -/
def enormous : Number := .float ⟨false, Nat.pow 10 20 * Binary64.one⟩

/-- The timeout of a configuration, the delay of a test, the pause of an operation and the timeout
of settings are all converted without a look at their size. -/
theorem Compiler.not_calm_enormous :
    ¬ Calm (({ registry := .builtins } : Compiler).compile ⟨"/r", []⟩ (withTest (.object
        [("config", .object [("timeout", .number enormous)])])) "/r").1 ∧
      ¬ Calm (({ registry := .builtins } : Compiler).compile ⟨"/r", []⟩ (withTest (.object
        [("test", .object [("url", .string "/"), ("delay", .number enormous)])])) "/r").1 ∧
      ¬ Calm (({ registry := .builtins } : Compiler).compile ⟨"/r", []⟩ (withTest (.object
        [("operation", .object [("type", .string "delay"), ("seconds", .number enormous)])]))
        "/r").1 ∧
      ¬ Calm (({ timeout := some (.finite enormous.toBinary64) } : Settings).applyToSets
        [⟨[], {}, none⟩]) := by
  decide +kernel

end HttpSuite
