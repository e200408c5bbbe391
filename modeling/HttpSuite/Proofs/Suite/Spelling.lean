import HttpSuite.Proofs.Document.Fields
import HttpSuite.Suite.Config
import Mathlib.Data.List.Induction

/-!
# Fields that are written more than once

A node that is a list of mappings may hold a field several times, its key spelled in different
letter cases.  Two passes make one mapping of the list, each with the later value at the place of
the earlier one.

* The first pass takes keys as they are written.  It leaves every spelling once, where it first
  came and with its last value.
* The second one takes keys in small letters.  Of the spellings of a key the one that stands last
  gives the value.  That is the spelling which *came in* last (`Fields.IsNewest`), and this need not
  be the one that was written last: after `URL`, `url` and `URL` the field has the value under
  `url`, although the list goes on.

So the field under a key is the last one under the newest spelling of the key
(`Fields.TakesNewest`).  The field that was written last, in whatever letter case, is the one that
is taken if and only if it is spelled in the newest way.  That is so in particular where no spelling
comes back after another one (`Fields.lowered_takesNewest`).
-/

namespace HttpSuite.Fields

open Entries (keys get? last?)

variable {entries fields before after : Mapping} {written : List String} {key s w : String}
  {v : Value}

/-! ## The newest spelling of a key -/

/-- The spelling came in after all other spellings of its key, though these may have been written
again since. -/
def IsNewest (w : String) (written : List String) : Prop :=
  ∃ before after, written = before ++ w :: after ∧ w ∉ before ∧
    ∀ s ∈ after, lower s = lower w → s = w ∨ s ∈ before

/-- A spelling that is written at the end is the newest one if it is new, and otherwise changes
nothing. -/
theorem isNewest_concat : IsNewest w (written ++ [s]) ↔
    s ∉ written ∧ s = w ∨ (lower s = lower w → s ∈ written) ∧ IsNewest w written := by
  constructor
  · rintro ⟨before, after, heq, hnew, hafter⟩
    rcases List.eq_nil_or_concat' after with rfl | ⟨after, last, rfl⟩
    · obtain ⟨rfl, hs⟩ := List.append_inj' heq rfl
      exact .inl ⟨List.singleton_inj.mp hs ▸ hnew, List.singleton_inj.mp hs⟩
    · obtain ⟨rfl, hs⟩ : written = before ++ w :: after ∧ [s] = [last] :=
        List.append_inj' (by rw [heq, List.append_assoc, List.cons_append]) rfl
      obtain rfl := List.singleton_inj.mp hs
      refine .inr ⟨fun hkey => ?_, before, after, rfl, hnew, fun t ht =>
        hafter t (List.mem_append_left [s] ht)⟩
      rcases hafter s (List.mem_append_right after (List.mem_singleton_self s)) hkey with rfl | hs
      · exact List.mem_append_cons_self
      · exact List.mem_append_left _ hs
  · rintro (⟨hnew, rfl⟩ | ⟨hold, before, after, rfl, hnew, hafter⟩)
    · exact ⟨written, [], rfl, hnew, fun _ h => absurd h List.not_mem_nil⟩
    · refine ⟨before, after ++ [s], List.append_assoc .., hnew, fun t ht hkey => ?_⟩
      rcases List.mem_append.mp ht with ht | ht
      · exact hafter t ht hkey
      · obtain rfl := List.mem_singleton.mp ht
        rcases List.mem_append.mp (hold hkey) with hs | hs
        · exact .inr hs
        · rcases List.mem_cons.mp hs with hs | hs
          · exact .inl hs
          · exact hafter t hs hkey

theorem isNewest_addKey : IsNewest w (Entries.addKey written s) ↔ IsNewest w (written ++ [s]) := by
  unfold Entries.addKey
  by_cases hs : s ∈ written
  · rw [if_pos hs, isNewest_concat]
    simp only [hs, not_true_eq_false, false_and, implies_true, true_and, false_or]
  · rw [if_neg hs]

/-- The newest spelling stays the newest one where each spelling is kept once. -/
theorem isNewest_foldl_addKey : IsNewest w (written.foldl Entries.addKey []) ↔
    IsNewest w written := by
  induction written using List.reverseRecOn with
  | nil => rfl
  | append_singleton written s ih =>
    rw [List.foldl_append, List.foldl_cons, List.foldl_nil, isNewest_addKey, isNewest_concat,
      isNewest_concat, Entries.mem_foldl_addKey_nil, ih]

theorem exists_isNewest (h : key ∈ written.map lower) : ∃ w, IsNewest w written ∧ lower w = key := by
  induction written using List.reverseRecOn with
  | nil => cases h
  | append_singleton written s ih =>
    by_cases hs : lower s = key ∧ s ∉ written
    · exact ⟨s, isNewest_concat.mpr (.inl ⟨hs.2, rfl⟩), hs.1⟩
    · have hold : lower s = key → s ∈ written := fun hkey => not_not.mp fun hnew => hs ⟨hkey, hnew⟩
      have hmem : key ∈ written.map lower := by
        rw [List.map_append, List.mem_append] at h
        rcases h with h | h
        · exact h
        · have hkey : key = lower s := List.mem_singleton.mp h
          exact hkey ▸ List.mem_map_of_mem (hold hkey.symm)
      obtain ⟨w, hw, rfl⟩ := ih hmem
      exact ⟨w, isNewest_concat.mpr (.inr ⟨hold, hw⟩), rfl⟩

/-- A spelling of the key is written again after another one was written. -/
def ComesBack (key : String) (written : List String) : Prop :=
  ∃ w s, w ≠ s ∧ lower w = key ∧ lower s = key ∧ [w, s, w].Sublist written

/-- Where no spelling comes back, the last one is the newest. -/
theorem isNewest_of_not_comesBack {before after : List String}
    (hlast : ∀ s ∈ after, lower s ≠ lower w)
    (h : ¬ ComesBack (lower w) (before ++ w :: after)) : IsNewest w (before ++ w :: after) := by
  by_cases hw : w ∈ before
  · obtain ⟨first, between, rfl, hfirst⟩ := List.eq_append_cons_of_mem hw
    refine ⟨first, between ++ w :: after, by rw [List.append_assoc, List.cons_append], hfirst,
      fun s hs hkey => .inl ?_⟩
    rcases List.mem_append.mp hs with hbetween | hs
    · by_contra hne
      have hsub : [w, s, w].Sublist (w :: (between ++ w :: after)) :=
        ((List.singleton_sublist.mpr hbetween).append
          ((List.nil_sublist after).cons_cons w)).cons_cons w
      refine h ⟨w, s, fun heq => hne heq.symm, rfl, hkey, ?_⟩
      rw [List.append_assoc, List.cons_append]
      exact hsub.trans (List.sublist_append_right ..)
    · exact (List.mem_cons.mp hs).resolve_right fun hs => hlast s hs hkey
  · exact ⟨before, after, rfl, hw, fun s hs hkey => absurd hkey (hlast s hs)⟩

/-! ## The field that is taken -/

/-- The fields have each key of the entries once, in small letters and with the last value under its
newest spelling. -/
structure TakesNewest (entries fields : Mapping) : Prop where
  nodup : (keys fields).Nodup
  mem_keys : ∀ key, key ∈ keys fields ↔ ∃ e ∈ entries, lower e.1 = key
  get?_eq_some_iff : ∀ key v, get? key fields = some v ↔
    ∃ w, IsNewest w (keys entries) ∧ lower w = key ∧ last? w entries = some v

theorem mem_keys_lowerKeys : key ∈ keys (lowerKeys entries) ↔ ∃ e ∈ entries, lower e.1 = key := by
  rw [keys_lowerKeys, Entries.keys, List.map_map, List.mem_map]
  rfl

/-- The last value in any letter case, where it stands. -/
theorem last?_lowerKeys_eq_some_iff : last? key (lowerKeys entries) = some v ↔
    ∃ before w after, entries = before ++ (w, v) :: after ∧ lower w = key ∧
      ∀ e ∈ after, lower e.1 ≠ key := by
  rw [Entries.last?_eq_some_iff]
  constructor
  · rintro ⟨before, after, heq, hafter⟩
    obtain ⟨before, rest, rfl, -, hrest⟩ := List.map_eq_append_iff.mp heq
    obtain ⟨e, after, rfl, he, rfl⟩ := List.map_eq_cons_iff.mp hrest
    obtain ⟨rfl, rfl⟩ := Prod.mk.inj he
    exact ⟨before, e.1, after, rfl, rfl, fun e' he' hkey =>
      hafter (mem_keys_lowerKeys.mpr ⟨e', he', hkey⟩)⟩
  · rintro ⟨before, w, after, rfl, rfl, hafter⟩
    refine ⟨lowerKeys before, lowerKeys after, List.map_append, fun hmem => ?_⟩
    obtain ⟨e, he, hkey⟩ := mem_keys_lowerKeys.mp hmem
    exact hafter e he hkey

/-- **The second pass comes to the newest spelling of a key last**, with what the first pass has left
under it. -/
theorem get?_of_isNewest (h : IsNewest w (keys entries)) :
    get? (lower w) (Entries.ofList (lowerKeys (Entries.ofList entries))) = last? w entries := by
  have hnodup := Entries.nodup_keys_ofList entries
  -- after the first pass no other spelling of the key stands behind the newest one
  obtain ⟨first, rest, hkeys, hw, hrest⟩ : IsNewest w (keys (Entries.ofList entries)) := by
    rwa [Entries.keys_ofList, isNewest_foldl_addKey]
  obtain ⟨before, after, hsplit, hbefore, hafter⟩ := List.map_eq_append_iff.mp hkeys
  obtain ⟨e, after, rfl, rfl, rfl⟩ := List.map_eq_cons_iff.mp hafter
  rw [hkeys] at hnodup
  obtain ⟨-, hnodup, hdisjoint⟩ := List.nodup_append.mp hnodup
  have hlast : last? (lower e.1) (lowerKeys (Entries.ofList entries)) = some e.2 := by
    refine last?_lowerKeys_eq_some_iff.mpr ⟨before, e.1, after, hsplit, rfl, fun e' he' hkey => ?_⟩
    have hmem : e'.1 ∈ after.map Prod.fst := List.mem_map_of_mem he'
    rcases hrest e'.1 hmem hkey with heq | hold
    · exact (List.nodup_cons.mp hnodup).1 (heq ▸ hmem)
    · exact hdisjoint _ hold _ (List.mem_cons_of_mem _ hmem) rfl
  rw [Entries.get?_ofList, hlast, ← Entries.get?_ofList]
  refine (Entries.get?_of_mem (Entries.nodup_keys_ofList entries) ?_).symm
  rw [hsplit]
  exact List.mem_append_cons_self

theorem mem_keys_ofList_lowerKeys :
    key ∈ keys (Entries.ofList (lowerKeys (Entries.ofList entries))) ↔
      key ∈ keys (lowerKeys entries) := by
  rw [Entries.mem_keys_ofList, keys_lowerKeys, keys_lowerKeys, List.mem_map, List.mem_map]
  simp only [Entries.mem_keys_ofList]

theorem takesNewest_ofList (entries : Mapping) :
    TakesNewest entries (Entries.ofList (lowerKeys (Entries.ofList entries))) where
  nodup := Entries.nodup_keys_ofList _
  mem_keys _ := mem_keys_ofList_lowerKeys.trans mem_keys_lowerKeys
  get?_eq_some_iff key v := by
    constructor
    · intro hget
      have hmem := mem_keys_ofList_lowerKeys.mp (Entries.mem_keys_of_get? hget)
      rw [keys_lowerKeys] at hmem
      obtain ⟨w, hw, rfl⟩ := exists_isNewest hmem
      exact ⟨w, hw, rfl, get?_of_isNewest hw ▸ hget⟩
    · rintro ⟨w, hw, rfl, hlast⟩
      rw [get?_of_isNewest hw, hlast]

namespace TakesNewest

/-- The last field in any letter case is taken if its spelling is the newest one of its key. -/
theorem get?_of_newest (h : TakesNewest entries fields) (heq : entries = before ++ (w, v) :: after)
    (hlast : ∀ e ∈ after, lower e.1 ≠ lower w) (hw : IsNewest w (keys entries)) :
    get? (lower w) fields = some v := by
  refine (h.get?_eq_some_iff _ _).mpr ⟨w, hw, rfl, ?_⟩
  refine Entries.last?_eq_some_iff.mpr ⟨before, after, heq, fun hmem => ?_⟩
  obtain ⟨e, he, hkey⟩ := List.mem_map.mp hmem
  exact hlast e he (congrArg lower hkey)

/-- Otherwise an earlier field prevails over it, whose key is spelled in another letter case. -/
theorem exists_get?_of_not_newest (h : TakesNewest entries fields)
    (heq : entries = before ++ (w, v) :: after) (hlast : ∀ e ∈ after, lower e.1 ≠ lower w)
    (hw : ¬ IsNewest w (keys entries)) :
    ∃ e ∈ before, e.1 ≠ w ∧ lower e.1 = lower w ∧ get? (lower w) fields = some e.2 := by
  have hmem : lower w ∈ keys fields :=
    (h.mem_keys _).mpr ⟨(w, v), heq ▸ List.mem_append_cons_self, rfl⟩
  obtain ⟨u, hget⟩ := Entries.exists_get?_of_mem hmem
  obtain ⟨s, hs, hkey, hvalue⟩ := (h.get?_eq_some_iff _ _).mp hget
  have hne : s ≠ w := fun hsw => hw (hsw ▸ hs)
  refine ⟨(s, u), ?_, hne, hkey, hget⟩
  have hentry : (s, u) ∈ entries := Entries.mem_of_last? hvalue
  rw [heq, List.mem_append, List.mem_cons] at hentry
  rcases hentry with hbefore | hself | hafter
  · exact hbefore
  · exact absurd (congrArg Prod.fst hself) hne
  · exact absurd hkey (hlast _ hafter)

/-- The last field in any letter case is taken under a key no spelling of which comes back. -/
theorem get?_eq_last? (h : TakesNewest entries fields) (hno : ¬ ComesBack key (keys entries)) :
    get? key fields = last? key (lowerKeys entries) := by
  cases hlast : last? key (lowerKeys entries) with
  | none =>
    refine Entries.get?_eq_none fun hmem => ?_
    exact Entries.last?_eq_none_iff.mp hlast (mem_keys_lowerKeys.mpr ((h.mem_keys key).mp hmem))
  | some v =>
    obtain ⟨before, w, after, heq, rfl, hafter⟩ := last?_lowerKeys_eq_some_iff.mp hlast
    have hkeys : keys entries = keys before ++ w :: keys after := by
      rw [heq, Entries.keys, List.map_append, List.map_cons]
      rfl
    refine h.get?_of_newest heq hafter ?_
    rw [hkeys] at hno ⊢
    refine isNewest_of_not_comesBack (fun s hs => ?_) hno
    obtain ⟨e, he, rfl⟩ := List.mem_map.mp hs
    exact hafter e he

end TakesNewest

/-! ## Lists of mappings -/

theorem lowerKeys_eq_self (h : ∀ key ∈ keys fields, lower key = key) :
    lowerKeys fields = fields := by
  conv_rhs => rw [← List.map_id fields]
  exact List.map_congr_left fun e he => Prod.ext (h e.1 (List.mem_map_of_mem he)) rfl

/-- The mapping that is made of a node is taken as it is. -/
theorem TakesNewest.lowered_object (h : TakesNewest entries fields) (part : String) :
    lowered (.object fields) part = .ok fields := by
  have hself : lowerKeys fields = fields := by
    refine lowerKeys_eq_self fun key hkey => ?_
    obtain ⟨e, -, rfl⟩ := (h.mem_keys key).mp hkey
    exact lower_lower e.1
  have hdeclares : Declares (.object fields) fields := by
    have := Declares.mapping fields
    rwa [hself] at this
  exact hdeclares.lowered_eq h.nodup part

/-- **Of the spellings of a key the newest one prevails.**  A list of mappings is taken as one
mapping that has each key once, in small letters, with the last value under its newest spelling.
The field that was written last, in whatever letter case, gives its value if its spelling is the
newest one; if it is not, an earlier field does, which is spelled differently.  So the last field
always gives the value of a key no spelling of which comes back.  Tests and configurations are made
from that mapping and from nothing else of the list. -/
theorem lowered_takesNewest (parts : List Mapping) :
    ∃ fields, (∀ part, lowered (.array (parts.map Value.object)) part = .ok fields) ∧
      TakesNewest parts.flatten fields ∧
      (∀ before w v after, parts.flatten = before ++ (w, v) :: after →
        (∀ e ∈ after, lower e.1 ≠ lower w) →
        (IsNewest w (keys parts.flatten) → get? (lower w) fields = some v) ∧
        (¬ IsNewest w (keys parts.flatten) →
          ∃ e ∈ before, e.1 ≠ w ∧ lower e.1 = lower w ∧ get? (lower w) fields = some e.2)) ∧
      (∀ key, ¬ ComesBack key (keys parts.flatten) →
        get? key fields = last? key (lowerKeys parts.flatten)) ∧
      (∀ r, Test.compile r (.array (parts.map Value.object)) = Test.compile r (.object fields)) ∧
      ∀ r c, Config.merge r c (.array (parts.map Value.object)) =
        Config.merge r c (.object fields) := by
  have hlist := fun part => lowered_eq_ofList (entries_list parts part)
  have htakes := takesNewest_ofList parts.flatten
  refine ⟨_, hlist, htakes, fun before w v after heq hlast => ?_, fun key => htakes.get?_eq_last?,
    fun r => ?_, fun r c => ?_⟩
  · exact ⟨htakes.get?_of_newest heq hlast, htakes.exists_get?_of_not_newest heq hlast⟩
  · rw [Test.compile, Test.compile, hlist, htakes.lowered_object]
  · rw [Config.merge, Config.merge, hlist, htakes.lowered_object]

/-- An address that is spelled in two ways, and then again in the second one. -/
def settledUrl : List Mapping :=
  [[("URL", .string "/a")], [("url", .string "/b"), ("method", .string "POST")],
    [("url", .string "/c")]]

/-- The last address is taken, also by the test. -/
theorem lowered_takesNewest_settledUrl :
    ∃ fields, lowered (.array (settledUrl.map Value.object)) "test" = .ok fields ∧
      get? "url" fields = some (.string "/c") ∧
      Test.compile .builtins (.array (settledUrl.map Value.object)) =
        Test.compile .builtins (.object fields) := by
  obtain ⟨fields, hlowered, -, hlast, -, hcompile, -⟩ := lowered_takesNewest settledUrl
  refine ⟨fields, hlowered "test", ?_, hcompile .builtins⟩
  have hnewest : IsNewest "url" (keys settledUrl.flatten) :=
    ⟨["URL"], ["method", "url"], rfl, by decide, by decide⟩
  exact (hlast (settledUrl.flatten.take 3) "url" (.string "/c") [] rfl
    fun _ h => absurd h List.not_mem_nil).1 hnewest

/-- An address that is spelled in two ways, and then again in the first one. -/
def alternatingUrl : List Mapping :=
  [[("URL", .string "/a")], [("url", .string "/b")], [("URL", .string "/c")]]

/-- The address that was written last is lost. -/
theorem alternatingUrl_loses_last :
    lowered (.array (alternatingUrl.map Value.object)) "test" = .ok [("url", .string "/b")] ∧
      last? "url" (lowerKeys alternatingUrl.flatten) = some (.string "/c") ∧
      (Test.compile .builtins (.array (alternatingUrl.map Value.object))).toOption.map Test.url =
        some "/b" := by
  refine ⟨rfl, rfl, ?_⟩
  decide +kernel

end HttpSuite.Fields
