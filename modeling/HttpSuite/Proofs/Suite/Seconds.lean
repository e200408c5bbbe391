import HttpSuite.Proofs.Entries
import HttpSuite.Proofs.Suite.Calm
import HttpSuite.Suite.Compile

/-!
# The numbers of seconds that nodes ask for

A node of a document asks for at most one number of seconds, `Draft.secondsOf`.  The node is calm
where the number fits, whatever else is wrong with it (`Draft.calm_addNode`), and it never adds
anything where the number does not (`Draft.fits_of_addNode`).
-/

namespace HttpSuite

/-! ## The numbers that nodes ask for -/

/-- The number of seconds in a field of a declaration. -/
def Fields.secondsOf (field : String) (v : Value) (part : String) : Option Binary64 := do
  let fields ← (lowered v part).toOption
  (← Entries.get? field fields).binary64?

section

variable {field part : String} {v : Value} {fields : Mapping} {x : Binary64}

theorem Fields.mem_secondsOf (h : lowered v part = .ok fields) {e : String × Value}
    (he : e ∈ fields) (hkey : e.1 = field) (hx : x ∈ e.2.binary64?) :
    x ∈ secondsOf field v part := by
  obtain ⟨given, -, hgiven⟩ := Except.eq_ok_of_map h
  have hnodup : (Entries.keys fields).Nodup := hgiven ▸ Entries.nodup_keys_ofList _
  have hget : Entries.get? field fields = some e.2 :=
    Entries.get?_of_mem hnodup (hkey ▸ he)
  rw [secondsOf, h]
  exact Option.bind_eq_some_iff.mpr ⟨fields, rfl, Option.bind_eq_some_iff.mpr ⟨e.2, hget, hx⟩⟩

theorem Fields.exists_of_mem_secondsOf (h : lowered v part = .ok fields)
    (hx : x ∈ secondsOf field v part) : ∃ w, (field, w) ∈ fields ∧ x ∈ w.binary64? := by
  rw [secondsOf, h] at hx
  obtain ⟨_, hfields, hx⟩ := Option.bind_eq_some_iff.mp hx
  cases hfields
  obtain ⟨w, hget, hx⟩ := Option.bind_eq_some_iff.mp hx
  exact ⟨w, Entries.mem_of_get? hget, hx⟩

end

/-- The number of seconds of an operation that is a delay. -/
def Operation.secondsOf (r : Registry) (v : Value) : Option Binary64 := do
  let fields ← v.object?
  let a ← r.operation? (← (Entries.get? "type" fields).bind Value.string?)
  if a.kind = .delay then pauseOf ((a.configure v).object?.getD fields) else none

/-- The number of seconds that a node asks for. -/
def Draft.secondsOf (r : Registry) (key : String) (v : Value) : Option Binary64 :=
  match key with
  | "config" | "configuration" => Fields.secondsOf "timeout" v "config"
  | "test" => Fields.secondsOf "delay" v "test"
  | "operation" => Operation.secondsOf r v
  | _ => none

namespace Operation

variable {kind : OperationKind} {config : Mapping}

theorem calm_declare (h : kind = .delay → ∀ x ∈ pauseOf config, Duration.Fits x) :
    Calm (declare kind config) := by
  cases kind with
  | print =>
    unfold declare
    dsimp only
    split
    · exact .ok _
    · exact .invalid _ _
  | delay =>
    unfold declare
    dsimp only
    split
    · exact .invalid _ _
    · rename_i x hx
      obtain ⟨hx, hsign⟩ := Option.filter_eq_some_iff.mp hx
      exact (Duration.calm_ofSeconds hsign (h rfl x hx)).map _
  | bind =>
    unfold declare
    dsimp only
    split
    · exact .ok _
    · exact .invalid _ _

theorem fits_of_declare {op : Operation} (h : declare .delay config = .ok op) :
    ∀ x ∈ pauseOf config, Duration.Fits x := by
  intro x hx hneg
  have hfilter : (pauseOf config).filter (fun x => !x.negative || x.isZero) = some x :=
    Option.filter_eq_some_iff.mpr ⟨hx, by rw [hneg]; rfl⟩
  rw [declare, hfilter] at h
  obtain ⟨d, hd, -⟩ := Except.eq_ok_of_map h
  exact Duration.fits_of_ofSeconds hd hneg

end Operation

namespace Test

variable {r : Registry} {t t' : Test} {key : String} {v : Value}

theorem calm_delayOf (h : ∀ x ∈ v.binary64?, Duration.Fits x) : Calm (delayOf v) := by
  unfold delayOf
  split
  · exact .invalid _ _
  · rename_i x hx
    obtain ⟨hx, hsign⟩ := Option.filter_eq_some_iff.mp hx
    exact Duration.calm_ofSeconds hsign (h x hx)

theorem fits_of_delayOf {d : Duration} (h : delayOf v = .ok d) :
    ∀ x ∈ v.binary64?, Duration.Fits x := by
  intro x hx hneg
  have hfilter : v.binary64?.filter (fun x => !x.negative || x.isZero) = some x :=
    Option.filter_eq_some_iff.mpr ⟨hx, by rw [hneg]; rfl⟩
  rw [delayOf, hfilter] at h
  exact Duration.fits_of_ofSeconds h hneg

theorem calm_boolOf (field : String) (v : Value) : Calm (boolOf field v) := by
  unfold boolOf
  split
  · exact .ok _
  · split
    iterate 6 exact .ok _
    exact .invalid _ _
  · exact .invalid _ _

theorem calm_statusesOf (v : Value) : Calm (statusesOf v) := by
  have hstatus : ∀ v, Calm (statusOf v) := by
    intro v
    unfold statusOf
    dsimp only
    split
    · exact .ok _
    · exact .invalid _ _
  unfold statusesOf
  split
  · exact .mapM hstatus
  · exact (hstatus _).map _

theorem calm_validatorsOf (r : Registry) (v : Value) : Calm (validatorsOf r v) := by
  unfold validatorsOf
  split
  · refine .mapM fun node => ?_
    exact (Registry.calm_singleType _ _).bind fun _ _ => r.calm_declareValidator _ _
  · exact .mapM fun _ => r.calm_declareValidator _ _
  · exact .invalid _ _

theorem calm_extractorsOf (r : Registry) (v : Value) : Calm (extractorsOf r v) := by
  refine (Fields.calm_ofValue _ _).bind fun fields _ => .mapM fun field => .bind ?_ fun _ _ => .ok _
  exact (Registry.calm_singleType _ _).bind fun _ _ => r.calm_declareExtractor _ _

theorem calm_setField (h : key = "delay" → ∀ x ∈ v.binary64?, Duration.Fits x) :
    Calm (t.setField r key v) := by
  unfold setField
  split
  · exact .ok _
  · exact .ok _
  · split
    · exact .ok _
    · exact .invalid _ _
  · exact (Fields.calm_ofValue _ _).bind fun _ _ => .ok _
  · exact .ok _
  · exact (calm_statusesOf _).bind fun _ _ => .ok _
  · exact (calm_validatorsOf _ _).bind fun _ _ => .ok _
  -- two names of one field
  iterate 2
    · exact (calm_extractorsOf _ _).bind fun _ _ => .ok _
  · refine (calm_extractorsOf _ _).bind fun xs _ => ?_
    split
    · exact .invalid _ _
    · exact .ok _
  · exact (Fields.calm_ofValue _ _).bind fun _ _ => .ok _
  · exact (Fields.calm_ofValue _ _).bind fun _ _ => .ok _
  · exact (calm_boolOf _ _).bind fun _ _ => .ok _
  · exact .ok _
  · exact (calm_delayOf (h rfl)).bind fun _ _ => .ok _
  · exact .ok _
  · exact .ok _
  · exact .invalid _ _

theorem calm_urlOf (fields : Mapping) : Calm (urlOf fields) := by
  unfold urlOf
  split
  · exact .invalid _ _
  · exact .ok _
  · exact .ok _
  · exact .invalid _ _

/-- A declared test is calm if its delay fits. -/
theorem calm_compile (h : ∀ x ∈ Fields.secondsOf "delay" v "test", Duration.Fits x) :
    Calm (compile r v) := by
  refine (Fields.calm_lowered _ _).bind fun fields hfields => ?_
  refine (calm_urlOf _).bind fun url _ => .foldlM (fun t field hfield => calm_setField ?_) _
  intro hkey x hx
  exact h x (Fields.mem_secondsOf hfields hfield hkey hx)

theorem fits_of_setField (h : t.setField r "delay" v = .ok t') :
    ∀ x ∈ v.binary64?, Duration.Fits x := by
  obtain ⟨d, hd, -⟩ := Except.eq_ok_of_bind h
  exact fits_of_delayOf hd

/-- A declared test is only compiled if its delay fits. -/
theorem fits_of_compile (h : compile r v = .ok t) :
    ∀ x ∈ Fields.secondsOf "delay" v "test", Duration.Fits x := by
  intro x hx
  obtain ⟨fields, hfields, h⟩ := Except.eq_ok_of_bind h
  obtain ⟨url, -, h⟩ := Except.eq_ok_of_bind h
  obtain ⟨w, hw, hx⟩ := Fields.exists_of_mem_secondsOf hfields hx
  obtain ⟨t₀, t₁, hset⟩ := Except.exists_of_foldlM h hw
  exact fits_of_setField hset x hx

end Test

namespace Config

variable {r : Registry} {c c' : Config} {key : String} {v : Value} {touched names : List String}
  {fields : Mapping}

theorem calm_flagOf (key : String) (v : Value) : Calm (flagOf key v) := by
  unfold flagOf
  split
  · exact .ok _
  · split
    · exact .ok _
    · split
      · exact .ok _
      · exact .invalid _ _
  · exact .invalid _ _

/-- A number that is neither negative nor zero. -/
theorem sign_of_positive {x : Binary64} (h : (!x.negative && !x.isZero) = true) :
    (!x.negative || x.isZero) = true := by
  rw [(Bool.and_eq_true_iff.mp h).1]
  rfl

theorem calm_timeoutOf (h : ∀ x ∈ v.binary64?, Duration.Fits x) : Calm (timeoutOf v) := by
  unfold timeoutOf
  split
  · exact .invalid _ _
  · rename_i x hx
    obtain ⟨hx, hsign⟩ := Option.filter_eq_some_iff.mp hx
    exact Duration.calm_ofSeconds (sign_of_positive hsign) (h x hx)

theorem fits_of_timeoutOf {d : Duration} (h : timeoutOf v = .ok d) :
    ∀ x ∈ v.binary64?, Duration.Fits x := by
  intro x hx
  unfold timeoutOf at h
  split at h
  · cases h
  · rename_i y hy
    obtain ⟨hy, -⟩ := Option.filter_eq_some_iff.mp hy
    obtain rfl : x = y := Option.some.inj (hx.symm.trans hy)
    exact Duration.fits_of_ofSeconds h

theorem calm_setField (h : key = "timeout" → ∀ x ∈ v.binary64?, Duration.Fits x) :
    Calm (c.setField key v) := by
  unfold setField
  split
  · exact (calm_timeoutOf (h rfl)).bind fun _ _ => .ok _
  · refine .bind ?_ fun _ _ => .ok _
    unfold retriesOf
    split
    · split
      · exact .ok _
      · exact .invalid _ _
    · exact .invalid _ _
  -- seven flags
  iterate 7
    · exact (calm_flagOf _ _).bind fun _ _ => .ok _
  · exact (Fields.calm_ofValue _ _).bind fun _ _ => .ok _
  · exact .ok _
  · exact .ok _
  · exact .invalid _ _

theorem calm_setFields
    (h : ∀ e ∈ fields, e.1 = "timeout" → ∀ x ∈ e.2.binary64?, Duration.Fits x) :
    Calm (c.setFields touched fields).1 := by
  induction fields generalizing c touched with
  | nil => exact .ok _
  | cons field rest ih =>
    obtain ⟨key, v⟩ := field
    rw [setFields]
    have hfield : Calm (c.setField key v) := calm_setField (h (key, v) (List.mem_cons_self ..))
    cases hset : c.setField key v with
    | ok set => exact ih fun e he => h e (List.mem_cons_of_mem _ he)
    | error e =>
      rw [hset] at hfield
      exact .of_error hfield

theorem fits_of_setFields (h : c.setFields touched fields = (.ok names, c')) :
    ∀ e ∈ fields, e.1 = "timeout" → ∀ x ∈ e.2.binary64?, Duration.Fits x := by
  induction fields generalizing c touched with
  | nil => exact fun e he => nomatch he
  | cons field rest ih =>
    obtain ⟨key, v⟩ := field
    rw [setFields] at h
    cases hset : c.setField key v with
    | error e =>
      rw [hset] at h
      cases h
    | ok set =>
      rw [hset] at h
      intro e he hkey
      rcases List.mem_cons.mp he with rfl | he
      · obtain rfl : key = "timeout" := hkey
        obtain ⟨d, hd, -⟩ := Except.eq_ok_of_bind hset
        exact fits_of_timeoutOf hd
      · exact ih h e he hkey

theorem calm_setGenerators {declared : List (String × Generator)} {declarations : Mapping} :
    Calm (setGenerators r c declared declarations).1 := by
  induction declarations generalizing c declared with
  | nil => exact .ok _
  | cons e rest ih =>
    obtain ⟨name, declaration⟩ := e
    have hgenerator : Calm (generatorOf r c name declaration) := by
      unfold generatorOf
      split
      · exact .invalid _ _
      · exact r.calm_declareGenerator _ _ _
    rw [setGenerators]
    cases hg : generatorOf r c name declaration with
    | ok g => exact ih
    | error e =>
      rw [hg] at hgenerator
      exact .of_error hgenerator

/-- A configuration node is calm if its timeout fits. -/
theorem calm_merge (h : ∀ x ∈ Fields.secondsOf "timeout" v "config", Duration.Fits x) :
    Calm (c.merge r v).1 := by
  unfold merge
  cases hl : Fields.lowered v "config" with
  | error e =>
    have hcalm := Fields.calm_lowered v "config"
    rw [hl] at hcalm
    exact hcalm.of_error
  | ok fields =>
    have hset : Calm (c.setFields [] fields).1 :=
      calm_setFields fun e he hkey x hx => h x (Fields.mem_secondsOf hl he hkey hx)
    dsimp only
    rcases hf : c.setFields [] fields with ⟨e | touched, c₁⟩
    · rw [hf] at hset
      exact hset.of_error
    · dsimp only
      split
      · exact .ok _
      · rename_i w _
        cases hv : Fields.ofValue w "generators" with
        | error e =>
          have hcalm := Fields.calm_ofValue w "generators"
          rw [hv] at hcalm
          exact hcalm.of_error
        | ok declarations =>
          have hgenerators : Calm (setGenerators r c₁ [] declarations).1 := calm_setGenerators
          dsimp only
          rcases hg : setGenerators r c₁ [] declarations with ⟨e | declared, c₂⟩
          · rw [hg] at hgenerators
            exact hgenerators.of_error
          · exact .ok _

/-- A configuration node is only merged if its timeout fits. -/
theorem fits_of_merge {change : Change} (h : c.merge r v = (.ok change, c')) :
    ∀ x ∈ Fields.secondsOf "timeout" v "config", Duration.Fits x := by
  intro x hx
  unfold merge at h
  cases hl : Fields.lowered v "config" with
  | error e =>
    rw [hl] at h
    cases h
  | ok fields =>
    rw [hl] at h
    dsimp only at h
    obtain ⟨w, hw, hx⟩ := Fields.exists_of_mem_secondsOf hl hx
    rcases hf : c.setFields [] fields with ⟨e | touched, c₁⟩
    · rw [hf] at h
      cases h
    · exact fits_of_setFields hf ("timeout", w) hw rfl x hx

end Config

/-! ## Nodes -/

namespace Operation

variable {r : Registry} {v : Value} {fields : Mapping} {key : String} {a : Alias OperationKind}

theorem secondsOf_eq (hkey : (Entries.get? "type" fields).bind Value.string? = some key)
    (ha : r.operation? key = some a) :
    secondsOf r (.object fields) =
      if a.kind = .delay then pauseOf ((a.configure (.object fields)).object?.getD fields)
      else none := by
  have hfields : (Value.object fields).object? = some fields := rfl
  simp only [secondsOf, hfields, hkey, ha, Option.bind_eq_bind, Option.bind_some]

theorem calm_operationOf (h : ∀ x ∈ secondsOf r v, Duration.Fits x) :
    Calm (Draft.operationOf r v) := by
  unfold Draft.operationOf
  split
  · rename_i fields
    split
    · rename_i key hkey
      unfold Registry.declareOperation
      split
      · rename_i a ha
        rw [secondsOf_eq hkey ha] at h
        refine calm_declare fun hdelay x hx => h x ?_
        rwa [if_pos hdelay]
      · exact .unknownType _ _
    · exact .invalid _ _
  · exact .invalid _ _

theorem fits_of_operationOf {op : Operation} (h : Draft.operationOf r v = .ok op) :
    ∀ x ∈ secondsOf r v, Duration.Fits x := by
  unfold Draft.operationOf at h
  split at h
  · rename_i fields
    split at h
    · rename_i key hkey
      unfold Registry.declareOperation at h
      split at h
      · rename_i a ha
        rw [secondsOf_eq hkey ha]
        split
        · rename_i hdelay
          rw [hdelay] at h
          exact fits_of_declare h
        · exact fun x hx => nomatch hx
      · cases h
    · cases h
  · cases h

end Operation

namespace Draft

variable {r : Registry} {d d' : Draft} {key : String} {v : Value}

theorem calm_configure (h : ∀ x ∈ Fields.secondsOf "timeout" v "config", Duration.Fits x) :
    Calm (d.configure r v) := by
  have hmerge : Calm (d.config.merge r v).1 := Config.calm_merge h
  unfold configure
  rcases hm : d.config.merge r v with ⟨e | change, config⟩
  · rw [hm] at hmerge
    exact hmerge.of_error
  · exact .ok _

theorem fits_of_configure (h : d.configure r v = .ok d') :
    ∀ x ∈ Fields.secondsOf "timeout" v "config", Duration.Fits x := by
  unfold configure at h
  rcases hm : d.config.merge r v with ⟨e | change, config⟩
  · rw [hm] at h
    cases h
  · exact Config.fits_of_merge hm

/-- **A node is calm if the number of seconds that it asks for fits.** -/
theorem calm_addNode (h : ∀ x ∈ secondsOf r key v, Duration.Fits x) : Calm (d.addNode r key v) := by
  unfold addNode
  split
  -- two names of one node
  iterate 2
    · exact calm_configure h
  · refine .bind ?_ fun _ _ => .ok _
    unfold urlOf
    split
    · exact .ok _
    · exact .ok _
    · exact .malformedNode _
  · exact (Test.calm_compile h).bind fun _ _ => .ok _
  · exact (Operation.calm_operationOf h).bind fun _ _ => .ok _
  · exact .malformedNode _

/-- **A node adds to a document only if the number of seconds that it asks for fits.** -/
theorem fits_of_addNode (h : d.addNode r key v = .ok d') :
    ∀ x ∈ secondsOf r key v, Duration.Fits x := by
  unfold addNode at h
  split at h
  iterate 2
    · exact fits_of_configure h
  · exact fun x hx => nomatch hx
  · obtain ⟨t, ht, -⟩ := Except.eq_ok_of_bind h
    exact Test.fits_of_compile ht
  · obtain ⟨op, hop, -⟩ := Except.eq_ok_of_bind h
    exact Operation.fits_of_operationOf hop
  · cases h

end Draft

end HttpSuite
