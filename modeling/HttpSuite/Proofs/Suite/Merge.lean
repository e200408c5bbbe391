import HttpSuite.Proofs.Value.Equality
import HttpSuite.Suite.Merge

/-!
# What a merge holds at every path

A path is a list of keys that leads from mapping to mapping.  `Mapping.Overlays` says, path by path
and without the function, what comes of merging a source into a target:

* what the source holds there, if that is not a mapping;
* what the target holds there, if the source `Spares` the path, which means that it has nothing
  there and nothing but mappings on the way;
* nothing, if the source cuts the path off with something else than a mapping;
* the mapping of the source, or the two mappings joined where the target has one too.

The recursion is that of `Mapping.overlayValue`: a value is laid over what may stand in its place,
and at a path below it lies over what stands there (`Value.at?_overlayValue`).  So every law is one
induction, on the path or on the value that is laid over the other.
-/

namespace HttpSuite

/-! ## Paths -/

namespace Value

/-- The value at a path of keys. -/
def at? : List String → Value → Option Value
  | [], v => some v
  | key :: path, v => (v.field? key).bind (at? path)

def IsMapping (v : Value) : Prop := ∃ fields, v = .object fields

/-- A value leaves a path alone: it has nothing there, and nothing but mappings on the way. -/
structure Spares (v : Value) (path : List String) : Prop where
  absent : v.at? path = none
  isMapping : ∀ before, before <+: path → ∀ w, v.at? before = some w → w.IsMapping

variable {v w : Value} {fields : Mapping} {path : List String} {key : String}

@[simp] theorem at?_object_cons (fields : Mapping) (key : String) (path : List String) :
    (Value.object fields).at? (key :: path) = (Entries.get? key fields).bind (at? path) := rfl

theorem at?_cons_of_not (h : ¬ v.IsMapping) : v.at? (key :: path) = none := by
  cases v with
  | object fields => exact absurd ⟨fields, rfl⟩ h
  | null | bool | number | string | array => rfl

theorem at?_append (path rest : List String) (v : Value) :
    v.at? (path ++ rest) = (v.at? path).bind (at? rest) := by
  induction path generalizing v with
  | nil => rfl
  | cons key path ih =>
    rw [List.cons_append, at?, at?, Option.bind_assoc]
    exact congrArg _ (funext ih)

/-- A path that leads on leads on from a mapping. -/
theorem isMapping_of_at? (h : v.at? (key :: path) = some w) :
    ∃ fields u, v = .object fields ∧ Entries.get? key fields = some u ∧ u.at? path = some w := by
  by_cases hv : v.IsMapping
  · obtain ⟨fields, rfl⟩ := hv
    obtain ⟨u, hu, hw⟩ := Option.bind_eq_some_iff.mp h
    exact ⟨fields, u, rfl, hu, hw⟩
  · rw [at?_cons_of_not hv] at h
    cases h

theorem Spares.exists_object (h : v.Spares (key :: path)) :
    ∃ fields, v = .object fields ∧ ∀ u, Entries.get? key fields = some u → u.Spares path := by
  obtain ⟨fields, rfl⟩ := h.isMapping [] List.nil_prefix v rfl
  refine ⟨fields, rfl, fun u hu => ⟨?_, fun before hbefore w hw => ?_⟩⟩
  · have habsent := h.absent
    rwa [at?_object_cons, hu] at habsent
  · refine h.isMapping (key :: before) (List.cons_prefix_cons.mpr ⟨rfl, hbefore⟩) w ?_
    rwa [at?_object_cons, hu]

theorem IsProper.nodup_keys (h : IsProper (.object fields)) : (Entries.keys fields).Nodup := by
  cases h with
  | object hkeys _ => exact hkeys

theorem IsProper.of_get? (h : IsProper (.object fields)) (hv : Entries.get? key fields = some v) :
    IsProper v := by
  cases h with
  | object _ hfields => exact hfields _ (Entries.mem_of_get? hv)

theorem IsProper.of_at? (hv : IsProper v) (h : v.at? path = some w) : IsProper w := by
  induction path generalizing v with
  | nil => exact Option.some.inj h ▸ hv
  | cons key path ih =>
    obtain ⟨fields, u, rfl, hu, hw⟩ := isMapping_of_at? h
    exact ih (hv.of_get? hu) hw

/-- Values are told apart by what they hold at paths: by the keys, where both hold a mapping, and by
the value otherwise. -/
theorem eq_of_at? (hv : IsProper v) (hw : IsProper w)
    (h : ∀ path, v.at? path = w.at? path ∨ ∃ m n, v.at? path = some (.object m) ∧
      w.at? path = some (.object n) ∧ Entries.keys m = Entries.keys n) : v = w := by
  induction hv generalizing w with
  | object hm hfields ih =>
    rename_i m
    rcases h [] with heq | ⟨_, n, hm', hn', hkeys⟩
    · exact Option.some.inj heq
    · cases hm'
      obtain rfl : w = .object n := Option.some.inj hn'
      congr 1
      refine Entries.ext hm hw.nodup_keys hkeys fun k => ?_
      cases hk : Entries.get? k m with
      | none => rw [Entries.get?_eq_none (hkeys ▸ Entries.get?_eq_none_iff.mp hk)]
      | some u =>
        have hmem : k ∈ Entries.keys n := hkeys ▸ Entries.mem_keys_of_get? hk
        obtain ⟨u', hk'⟩ := Entries.exists_get?_of_mem hmem
        have hu : u = u' := ih (k, u) (Entries.mem_of_get? hk) (hw.of_get? hk') fun path => by
          have hpath := h (k :: path)
          rwa [at?_object_cons, at?_object_cons, hk, hk'] at hpath
        rw [hk', hu]
  | null | bool | string | number | array =>
    rcases h [] with heq | ⟨_, _, hobject, _⟩
    · exact Option.some.inj heq
    · cases hobject

end Value

/-! ## One level -/

namespace Mapping

open Value (at? Spares IsMapping IsProper)

variable {t s : Mapping} {u v w : Value} {o : Option Value} {path : List String} {k : String}

theorem overlayValue_none (v : Value) : overlayValue v none = v := by
  cases v <;> rw [overlayValue] <;> nofun

theorem overlayValue_object (new old : Mapping) :
    overlayValue (.object new) (some (.object old)) = .object (merge old new) := by
  rw [overlayValue, merge]

/-- A value that is no mapping replaces what was there. -/
theorem overlayValue_of_not (h : ¬ v.IsMapping) (o : Option Value) : overlayValue v o = v := by
  cases v with
  | object new => exact absurd ⟨new, rfl⟩ h
  | null | bool | number | string | array => rw [overlayValue]; nofun

/-- A value that is no mapping is replaced. -/
theorem overlayValue_some_of_not (h : ¬ w.IsMapping) (v : Value) :
    overlayValue v (some w) = v := by
  cases w with
  | object old => exact absurd ⟨old, rfl⟩ h
  | null | bool | number | string | array => cases v <;> rw [overlayValue] <;> nofun

theorem get?_merge (hs : (Entries.keys s).Nodup) (t : Mapping) (k : String) :
    Entries.get? k (merge t s) =
      ((Entries.get? k s).map fun v => overlayValue v (Entries.get? k t)).or
        (Entries.get? k t) := by
  unfold merge
  induction s generalizing t with
  | nil => rfl
  | cons e rest ih =>
    obtain ⟨key, v⟩ := e
    obtain ⟨hkey, hrest⟩ : key ∉ Entries.keys rest ∧ (Entries.keys rest).Nodup :=
      List.nodup_cons.mp hs
    rw [mergeInto, ih hrest, Entries.get?_insert, Entries.get?]
    by_cases hk : key = k
    · subst hk
      rw [if_pos rfl, if_pos rfl, Entries.get?_eq_none hkey]
      rfl
    · rw [if_neg hk, if_neg hk]

theorem keys_mergeInto (s : List (String × Value)) (t : Mapping) :
    Entries.keys (mergeInto s t) = (Entries.keys s).foldl Entries.addKey (Entries.keys t) := by
  induction s generalizing t with
  | nil => rfl
  | cons e rest ih =>
    obtain ⟨key, v⟩ := e
    rw [mergeInto, ih, Entries.keys_insert]
    rfl

/-- The keys of the target keep their order, and new ones follow in the order of the source. -/
theorem keys_merge (hs : (Entries.keys s).Nodup) (t : Mapping) :
    Entries.keys (merge t s) =
      Entries.keys t ++ (Entries.keys s).filter (fun k => k ∉ Entries.keys t) :=
  (keys_mergeInto s t).trans (Entries.foldl_addKey_eq_append hs)

theorem nodup_keys_merge (ht : (Entries.keys t).Nodup) (s : Mapping) :
    (Entries.keys (merge t s)).Nodup := by
  rw [merge, keys_mergeInto]
  exact Entries.nodup_foldl_addKey ht

/-! ## Every level -/

/-- What is laid over a value holds, where the one above has something, that over what is below. -/
theorem at?_overlayValue (hu : IsProper u) (h : u.at? path = some v) :
    (overlayValue u o).at? path = some (overlayValue v (o.bind (at? path))) := by
  induction path generalizing u o with
  | nil =>
    obtain rfl : u = v := Option.some.inj h
    cases o <;> rfl
  | cons key path ih =>
    obtain ⟨new, u', rfl, hu', hv⟩ := Value.isMapping_of_at? h
    cases o with
    | none => rw [overlayValue_none, h, Option.bind_none, overlayValue_none]
    | some w =>
      rw [Option.bind_some]
      by_cases hw : w.IsMapping
      · obtain ⟨old, rfl⟩ := hw
        rw [overlayValue_object, Value.at?_object_cons, Value.at?_object_cons,
          get?_merge hu.nodup_keys, hu', Option.map_some, Option.some_or, Option.bind_some]
        exact ih (hu.of_get? hu') hv
      · rw [overlayValue_some_of_not hw, h, Value.at?_cons_of_not hw, overlayValue_none]

/-- What is laid over a value holds what is below, where the one above leaves the path alone. -/
theorem at?_overlayValue_of_spares (hu : IsProper u) (h : u.Spares path) :
    (overlayValue u o).at? path = o.bind (at? path) := by
  induction path generalizing u o with
  | nil => cases h.absent
  | cons key path ih =>
    obtain ⟨new, rfl, hnew⟩ := h.exists_object
    cases o with
    | none => rw [overlayValue_none, h.absent, Option.bind_none]
    | some w =>
      rw [Option.bind_some]
      by_cases hw : w.IsMapping
      · obtain ⟨old, rfl⟩ := hw
        rw [overlayValue_object, Value.at?_object_cons, Value.at?_object_cons,
          get?_merge hu.nodup_keys]
        cases hkey : Entries.get? key new with
        | none => rw [Option.map_none, Option.none_or]
        | some u' =>
          rw [Option.map_some, Option.some_or, Option.bind_some]
          exact ih (hu.of_get? hkey) (hnew u' hkey)
      · rw [overlayValue_some_of_not hw, h.absent, Value.at?_cons_of_not hw]

/-- What is laid over a value has nothing where the one above cuts the path off. -/
theorem at?_overlayValue_of_cut (hu : IsProper u) (habsent : u.at? path = none)
    (h : ¬ u.Spares path) : (overlayValue u o).at? path = none := by
  have hcut : ∃ before, before <+: path ∧ ∃ w, u.at? before = some w ∧ ¬ w.IsMapping := by
    by_contra hno
    refine h ⟨habsent, fun before hbefore w hw => ?_⟩
    by_contra hnot
    exact hno ⟨before, hbefore, w, hw, hnot⟩
  obtain ⟨before, ⟨rest, rfl⟩, w, hw, hnot⟩ := hcut
  rw [Value.at?_append, hw, Option.bind_some] at habsent
  rw [Value.at?_append, at?_overlayValue hu hw, overlayValue_of_not hnot, Option.bind_some, habsent]

theorem isProper_overlayValue (hv : IsProper v) (ho : ∀ w, o = some w → IsProper w) :
    IsProper (overlayValue v o) := by
  induction hv generalizing o with
  | object hkeys hnew ih =>
    rename_i new
    cases o with
    | none =>
      rw [overlayValue_none]
      exact .object hkeys hnew
    | some w =>
      by_cases hw : w.IsMapping
      · obtain ⟨old, rfl⟩ := hw
        have hold : IsProper (.object old) := ho _ rfl
        have hnodup := nodup_keys_merge hold.nodup_keys new
        rw [overlayValue_object]
        refine .object hnodup fun e he => ?_
        have hget := Entries.get?_of_mem hnodup he
        rw [get?_merge hkeys] at hget
        cases hnew' : Entries.get? e.1 new with
        | none =>
          rw [hnew', Option.map_none, Option.none_or] at hget
          exact hold.of_get? hget
        | some v =>
          rw [hnew', Option.map_some, Option.some_or] at hget
          rw [← Option.some.inj hget]
          exact ih _ (Entries.mem_of_get? hnew') fun w hw => hold.of_get? hw
      · rw [overlayValue_some_of_not hw]
        exact .object hkeys hnew
  | null | bool | string | number =>
    rw [overlayValue_of_not fun ⟨_, hobject⟩ => nomatch hobject]
    constructor
  | array h _ =>
    rw [overlayValue_of_not fun ⟨_, hobject⟩ => nomatch hobject]
    exact .array h

theorem isProper_merge (ht : IsProper (.object t)) (hs : IsProper (.object s)) :
    IsProper (.object (merge t s)) := by
  have h := isProper_overlayValue (o := some (.object t)) hs fun w hw => Option.some.inj hw ▸ ht
  rwa [overlayValue_object] at h

theorem merge_nil (t : Mapping) : merge t [] = t := rfl

/-- A mapping comes out of a merge into an empty one as it was. -/
theorem nil_merge (hs : (Entries.keys s).Nodup) : merge [] s = s := by
  have hempty : (Entries.keys ([] : Mapping)).Nodup := List.nodup_nil
  refine Entries.ext (nodup_keys_merge hempty s) hs ?_ fun k => ?_
  · rw [keys_merge hs]
    exact List.filter_eq_self.mpr fun k _ => decide_eq_true List.not_mem_nil
  · rw [get?_merge hs]
    cases Entries.get? k s with
    | none => rfl
    | some v => exact congrArg some (overlayValue_none v)

/-- A value that is laid over a second time changes nothing. -/
theorem overlayValue_overlayValue (hv : IsProper v) (ho : ∀ w, o = some w → IsProper w) :
    overlayValue v (some (overlayValue v o)) = overlayValue v o := by
  induction hv generalizing o with
  | object hkeys hnew ih =>
    rename_i new
    -- the second of two merges of one mapping
    have hagain {old : Mapping} (hold : IsProper (.object old)) :
        merge (merge old new) new = merge old new := by
      have hnodup := nodup_keys_merge hold.nodup_keys new
      refine Entries.ext (nodup_keys_merge hnodup new) hnodup ?_ fun k => ?_
      · rw [keys_merge hkeys, List.filter_eq_nil_iff.mpr, List.append_nil]
        intro k hk
        rw [decide_eq_true_iff, not_not, merge, keys_mergeInto]
        exact Entries.mem_foldl_addKey.mpr (.inr hk)
      · rw [get?_merge hkeys (merge old new), get?_merge hkeys old]
        cases hnew' : Entries.get? k new with
        | none => rfl
        | some v =>
          rw [Option.map_some, Option.map_some, Option.some_or, Option.some_or]
          exact congrArg some (ih _ (Entries.mem_of_get? hnew') fun w hw => hold.of_get? hw)
    have hself : overlayValue (.object new) (some (.object new)) = .object new := by
      have hempty : merge (merge [] new) new = merge [] new :=
        hagain (.object List.nodup_nil fun e he => nomatch he)
      rw [nil_merge hkeys] at hempty
      rw [overlayValue_object, hempty]
    cases o with
    | none => rw [overlayValue_none, hself]
    | some w =>
      by_cases hw : w.IsMapping
      · obtain ⟨old, rfl⟩ := hw
        rw [overlayValue_object, overlayValue_object, hagain (ho _ rfl)]
      · rw [overlayValue_some_of_not hw, hself]
  | null | bool | string | number | array =>
    exact overlayValue_of_not (fun ⟨_, hobject⟩ => nomatch hobject) _ |>.trans
      (overlayValue_of_not (fun ⟨_, hobject⟩ => nomatch hobject) o).symm

theorem merge_merge (ht : IsProper (.object t)) (hs : IsProper (.object s)) :
    merge (merge t s) s = merge t s := by
  have h := overlayValue_overlayValue (o := some (.object t)) hs fun w hw => Option.some.inj hw ▸ ht
  rw [overlayValue_object, overlayValue_object] at h
  exact Value.object.inj h

/-! ## The merge of two mappings -/

/-- What comes of merging a source into a target, path by path. -/
structure Overlays (target source result : Mapping) : Prop where
  replaced : ∀ path v, (Value.object source).at? path = some v → ¬ v.IsMapping →
    (Value.object result).at? path = some v
  spared : ∀ path, (Value.object source).Spares path →
    (Value.object result).at? path = (Value.object target).at? path
  /-- The source has something else than a mapping on the way. -/
  cut : ∀ path, (Value.object source).at? path = none → ¬ (Value.object source).Spares path →
    (Value.object result).at? path = none
  added : ∀ path new, (Value.object source).at? path = some (.object new) →
    (∀ old, (Value.object target).at? path ≠ some (.object old)) →
      (Value.object result).at? path = some (.object new)
  /-- Keys that were there keep their order, and new ones follow in theirs. -/
  joined : ∀ path old new, (Value.object target).at? path = some (.object old) →
    (Value.object source).at? path = some (.object new) →
      ∃ fields, (Value.object result).at? path = some (.object fields) ∧
        Entries.keys fields =
          Entries.keys old ++ (Entries.keys new).filter (fun k => k ∉ Entries.keys old)

theorem at?_merge (hs : IsProper (.object s)) (h : (Value.object s).at? path = some v) :
    (Value.object (merge t s)).at? path =
      some (overlayValue v ((Value.object t).at? path)) := by
  rw [← overlayValue_object]
  exact at?_overlayValue hs h

theorem overlays_merge (t : Mapping) (hs : IsProper (.object s)) : t.Overlays s (merge t s) where
  replaced := fun path v hv hnot => by rw [at?_merge hs hv, overlayValue_of_not hnot]
  spared := fun path h => by
    rw [← overlayValue_object]
    exact at?_overlayValue_of_spares hs h
  cut := fun path habsent h => by
    rw [← overlayValue_object]
    exact at?_overlayValue_of_cut hs habsent h
  added := fun path new hnew hold => by
    rw [at?_merge hs hnew]
    cases ht : (Value.object t).at? path with
    | none => rw [overlayValue_none]
    | some w =>
      rw [overlayValue_some_of_not]
      rintro ⟨old, rfl⟩
      exact hold old ht
  joined := fun path old new hold hnew => by
    refine ⟨merge old new, ?_, keys_merge (hs.of_at? hnew).nodup_keys old⟩
    rw [at?_merge hs hnew, hold, overlayValue_object]

/-- A merge holds something else than a mapping where the source does, or where the target does and
the source leaves it alone. -/
theorem at?_merge_eq_some_iff (hs : IsProper (.object s)) (hv : ¬ v.IsMapping) :
    (Value.object (merge t s)).at? path = some v ↔ (Value.object s).at? path = some v ∨
      (Value.object s).Spares path ∧ (Value.object t).at? path = some v := by
  have hover := overlays_merge t hs
  cases hsource : (Value.object s).at? path with
  | none =>
    by_cases hspares : (Value.object s).Spares path
    · rw [hover.spared path hspares]
      simp [hspares]
    · rw [hover.cut path hsource hspares]
      simp [hspares]
  | some w =>
    have hnot : ¬ (Value.object s).Spares path := fun h => by
      rw [h.absent] at hsource
      cases hsource
    rw [at?_merge hs hsource]
    by_cases hw : w.IsMapping
    · obtain ⟨new, rfl⟩ := hw
      -- a mapping is laid over by a mapping
      have hmapping : (overlayValue (.object new) ((Value.object t).at? path)).IsMapping := by
        cases ht : (Value.object t).at? path with
        | none => exact ⟨new, overlayValue_none _⟩
        | some u =>
          by_cases hu : u.IsMapping
          · obtain ⟨old, rfl⟩ := hu
            exact ⟨_, overlayValue_object new old⟩
          · exact ⟨new, overlayValue_some_of_not hu _⟩
      have hne : ∀ u : Value, u.IsMapping → u ≠ v := fun u hu heq => hv (heq ▸ hu)
      simp [hnot, hne _ hmapping, hne _ ⟨new, rfl⟩]
    · rw [overlayValue_of_not hw]
      simp [hnot]

/-- There is only one mapping to come of a merge. -/
theorem Overlays.unique {r r' : Mapping} (h : t.Overlays s r) (h' : t.Overlays s r')
    (hr : IsProper (.object r)) (hr' : IsProper (.object r')) : r = r' := by
  refine Value.object.inj (Value.eq_of_at? hr hr' fun path => ?_)
  cases hsource : (Value.object s).at? path with
  | none =>
    left
    by_cases hspares : (Value.object s).Spares path
    · rw [h.spared path hspares, h'.spared path hspares]
    · rw [h.cut path hsource hspares, h'.cut path hsource hspares]
  | some v =>
    by_cases hv : v.IsMapping
    · obtain ⟨new, rfl⟩ := hv
      by_cases hold : ∃ old, (Value.object t).at? path = some (.object old)
      · obtain ⟨old, hold⟩ := hold
        obtain ⟨fields, hfields, hkeys⟩ := h.joined path old new hold hsource
        obtain ⟨fields', hfields', hkeys'⟩ := h'.joined path old new hold hsource
        exact .inr ⟨fields, fields', hfields, hfields', hkeys.trans hkeys'.symm⟩
      · have hnone := not_exists.mp hold
        exact .inl (by rw [h.added path new hsource hnone, h'.added path new hsource hnone])
    · exact .inl (by rw [h.replaced path v hsource hv, h'.replaced path v hsource hv])

/-- **A merge holds at every path what it should**, and that determines it: what the source says
there, what the target says where the source is silent, and the merge of the two mappings where both
have one.  To merge the source once more changes nothing, nor does it to merge an empty mapping. -/
theorem merge_overlays (ht : IsProper (.object t)) (hs : IsProper (.object s)) :
    IsProper (.object (merge t s)) ∧ t.Overlays s (merge t s) ∧
      (∀ r, IsProper (.object r) → t.Overlays s r → r = merge t s) ∧
      (∀ path old new, (Value.object t).at? path = some (.object old) →
        (Value.object s).at? path = some (.object new) →
          (Value.object (merge t s)).at? path = some (.object (merge old new))) ∧
      merge (merge t s) s = merge t s ∧ merge t [] = t := by
  have hproper := isProper_merge ht hs
  refine ⟨hproper, overlays_merge t hs,
    fun r hr h => h.unique (overlays_merge t hs) hr hproper, fun path old new hold hnew => ?_,
    merge_merge ht hs, merge_nil t⟩
  rw [at?_merge hs hnew, hold, overlayValue_object]

/-- A mapping with two more of them below. -/
def lowerFields : Mapping :=
  [("user", .object [("name", .string "ada"), ("roles", .object [])]), ("host", .string "h"),
    ("limits", .object [("rate", .int 5)])]

/-- A mapping that replaces one of the lower ones by a number and joins the other. -/
def upperFields : Mapping :=
  [("limits", .int 0), ("user", .object [("id", .int 7), ("roles", .object [("admin", .null)])]),
    ("extra", .object [])]

theorem isProper_lowerFields : IsProper (.object lowerFields) := by
  have hroles : IsProper (.object []) := .object List.nodup_nil fun e he => nomatch he
  have huser : IsProper (.object [("name", .string "ada"), ("roles", .object [])]) :=
    .object (by decide) (List.forall_mem_cons.mpr ⟨.string _, List.forall_mem_singleton.mpr hroles⟩)
  have hlimits : IsProper (.object [("rate", .int 5)]) :=
    .object (by decide) (List.forall_mem_singleton.mpr (.number _))
  exact .object (by decide) (List.forall_mem_cons.mpr ⟨huser,
    List.forall_mem_cons.mpr ⟨.string _, List.forall_mem_singleton.mpr hlimits⟩⟩)

theorem isProper_upperFields : IsProper (.object upperFields) := by
  have hroles : IsProper (.object [("admin", .null)]) :=
    .object (by decide) (List.forall_mem_singleton.mpr .null)
  have huser : IsProper (.object [("id", .int 7), ("roles", .object [("admin", .null)])]) :=
    .object (by decide) (List.forall_mem_cons.mpr ⟨.number _, List.forall_mem_singleton.mpr hroles⟩)
  have hextra : IsProper (.object []) := .object List.nodup_nil fun e he => nomatch he
  exact .object (by decide) (List.forall_mem_cons.mpr ⟨.number _,
    List.forall_mem_cons.mpr ⟨huser, List.forall_mem_singleton.mpr hextra⟩⟩)

/-- The name of the user is spared, and the rate is cut off. -/
theorem merge_overlays_upper :
    IsProper (.object lowerFields) ∧ IsProper (.object upperFields) ∧
      lowerFields.Overlays upperFields (merge lowerFields upperFields) ∧
      merge (merge lowerFields upperFields) upperFields = merge lowerFields upperFields ∧
      (Value.object (merge lowerFields upperFields)).toText =
        "\x7b\"user\":\x7b\"name\":\"ada\",\"roles\":\x7b\"admin\":null\x7d,\"id\":7\x7d," ++
          "\"host\":\"h\",\"limits\":0,\"extra\":\x7b\x7d\x7d" := by
  obtain ⟨-, hoverlays, -, -, hagain, -⟩ := merge_overlays isProper_lowerFields isProper_upperFields
  exact ⟨isProper_lowerFields, isProper_upperFields, hoverlays, hagain, by decide +kernel⟩

end Mapping

end HttpSuite
