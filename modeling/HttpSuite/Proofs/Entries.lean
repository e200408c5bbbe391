import HttpSuite.Value
import Mathlib.Data.List.Basic
import Mathlib.Data.List.Nodup

/-!
# Laws of entries

Entries under names stand in the order in which the names first came.  So what `insert` does splits
into two facts that never meet: the values, told by `get?`, and the names with their order, told by
`keys`.  Two lists with distinct names are equal when both agree (`Entries.ext`), and that is how
orders of insertions are compared here.

`Entries.addKey` is what an insertion does to the names.
-/

namespace HttpSuite.Entries

variable {α β : Type} {m l : List (String × α)} {name k : String} {a : α}

/-! ## One insertion -/

/-- The names after a name was given, which stay as they were if it was among them. -/
def addKey (keys : List String) (name : String) : List String :=
  if name ∈ keys then keys else keys ++ [name]

theorem get?_insert (name k : String) (a : α) (m : List (String × α)) :
    get? k (insert name a m) = if name = k then some a else get? k m := by
  induction m with
  | nil => rfl
  | cons e rest ih =>
    obtain ⟨key, b⟩ := e
    by_cases hkey : key = name
    · subst hkey
      by_cases hk : key = k
      · simp only [insert, get?, hk, if_true]
      · simp only [insert, get?, hk, if_true, if_false]
    · by_cases hk : key = k
      · subst hk
        have hne : name ≠ key := fun h => hkey h.symm
        simp only [insert, get?, hkey, hne, if_true, if_false]
      · simp only [insert, get?, hkey, hk, if_false, ih]

theorem keys_insert (name : String) (a : α) (m : List (String × α)) :
    keys (insert name a m) = addKey (keys m) name := by
  induction m with
  | nil => rfl
  | cons e rest ih =>
    obtain ⟨key, b⟩ := e
    by_cases hkey : key = name
    · simp only [insert, hkey, if_true, keys, List.map_cons, addKey, List.mem_cons, true_or]
    · have hne : name ≠ key := fun h => hkey h.symm
      have ih' : keys (insert name a rest) = addKey (keys rest) name := ih
      rw [insert, if_neg hkey]
      change key :: keys (insert name a rest) = addKey (key :: keys rest) name
      rw [ih', addKey, addKey]
      by_cases hmem : name ∈ keys rest
      · rw [if_pos hmem, if_pos (List.mem_cons_of_mem _ hmem)]
      · have hnot : name ∉ key :: keys rest := by
          rw [List.mem_cons]
          rintro (h | h)
          · exact hne h
          · exact hmem h
        rw [if_neg hmem, if_neg hnot]
        rfl

theorem map_insert (f : α → β) (name : String) (a : α) (m : List (String × α)) :
    (insert name a m).map (fun e => (e.1, f e.2)) =
      insert name (f a) (m.map fun e => (e.1, f e.2)) := by
  induction m with
  | nil => rfl
  | cons e rest ih =>
    obtain ⟨key, b⟩ := e
    by_cases hkey : key = name
    · simp only [insert, hkey, if_true, List.map_cons]
    · simp only [insert, hkey, if_false, List.map_cons, ih]

theorem keys_map (f : α → β) (m : List (String × α)) :
    keys (m.map fun e => (e.1, f e.2)) = keys m := by
  rw [keys, keys, List.map_map]
  rfl

theorem get?_map (f : α → β) (k : String) (m : List (String × α)) :
    get? k (m.map fun e => (e.1, f e.2)) = (get? k m).map f := by
  induction m with
  | nil => rfl
  | cons e rest ih =>
    obtain ⟨key, b⟩ := e
    by_cases hkey : key = k
    · simp only [List.map_cons, get?, hkey, if_true, Option.map_some]
    · simp only [List.map_cons, get?, hkey, if_false, ih]

/-! ## Names -/

theorem mem_addKey {keys : List String} : k ∈ addKey keys name ↔ k ∈ keys ∨ k = name := by
  unfold addKey
  by_cases h : name ∈ keys
  · rw [if_pos h]
    constructor
    · exact .inl
    · rintro (hk | rfl)
      · exact hk
      · exact h
  · rw [if_neg h, List.mem_append, List.mem_singleton]

theorem nodup_addKey {keys : List String} (h : keys.Nodup) : (addKey keys name).Nodup := by
  unfold addKey
  by_cases hmem : name ∈ keys
  · rwa [if_pos hmem]
  · rw [if_neg hmem]
    exact List.nodup_append.mpr ⟨h, List.nodup_singleton name,
      fun k hk j hj => fun heq => hmem (List.mem_singleton.mp hj ▸ heq ▸ hk)⟩

theorem mem_foldl_addKey {keys names : List String} :
    k ∈ names.foldl addKey keys ↔ k ∈ keys ∨ k ∈ names := by
  induction names generalizing keys with
  | nil =>
    rw [List.foldl_nil]
    exact ⟨.inl, fun h => h.resolve_right (List.not_mem_nil)⟩
  | cons n rest ih =>
    rw [List.foldl_cons, ih, mem_addKey, List.mem_cons, or_assoc]

theorem mem_foldl_addKey_nil {names : List String} : k ∈ names.foldl addKey [] ↔ k ∈ names :=
  mem_foldl_addKey.trans (or_iff_right List.not_mem_nil)

theorem nodup_foldl_addKey {keys names : List String} (h : keys.Nodup) :
    (names.foldl addKey keys).Nodup := by
  induction names generalizing keys with
  | nil => exact h
  | cons n rest ih => exact ih (nodup_addKey h)

theorem prefix_foldl_addKey (keys names : List String) : keys <+: names.foldl addKey keys := by
  induction names generalizing keys with
  | nil => exact List.prefix_rfl
  | cons n rest ih =>
    refine List.IsPrefix.trans ?_ (ih (addKey keys n))
    unfold addKey
    split
    · exact List.prefix_rfl
    · exact List.prefix_append keys [n]

/-- Names that were given may be given again, in the order in which they first came. -/
theorem foldl_addKey_foldl_addKey (keys first names : List String) :
    (names.foldl addKey first).foldl addKey keys =
      names.foldl addKey (first.foldl addKey keys) := by
  induction names generalizing first with
  | nil => rfl
  | cons n rest ih =>
    rw [List.foldl_cons, List.foldl_cons, ih]
    congr 1
    by_cases hmem : n ∈ first
    · have hmem' : n ∈ first.foldl addKey keys := mem_foldl_addKey.mpr (.inr hmem)
      rw [addKey, if_pos hmem, addKey, if_pos hmem']
    · rw [addKey, if_neg hmem, List.foldl_append]
      rfl

/-- Names that are given once come after those that were there, unless they were among them. -/
theorem foldl_addKey_eq_append {keys names : List String} (h : names.Nodup) :
    names.foldl addKey keys = keys ++ names.filter (fun k => k ∉ keys) := by
  induction names generalizing keys with
  | nil => exact (List.append_nil keys).symm
  | cons n rest ih =>
    obtain ⟨hn, hrest⟩ := List.nodup_cons.mp h
    rw [List.foldl_cons, ih hrest]
    by_cases hmem : n ∈ keys
    · rw [addKey, if_pos hmem, List.filter_cons_of_neg (by simpa using hmem)]
    · rw [addKey, if_neg hmem, List.filter_cons_of_pos (by simpa using hmem), List.append_assoc,
        List.singleton_append]
      -- the rest does not hold the name that has come in
      have hfilter : rest.filter (fun k => k ∉ keys ++ [n]) = rest.filter (fun k => k ∉ keys) := by
        refine List.filter_congr fun k hk => ?_
        have hne : k ≠ n := fun heq => hn (heq ▸ hk)
        simp [hne]
      rw [hfilter]

theorem foldl_addKey_of_disjoint {keys names : List String} (h : names.Nodup)
    (hnew : ∀ k ∈ names, k ∉ keys) : names.foldl addKey keys = keys ++ names := by
  rw [foldl_addKey_eq_append h, List.filter_eq_self.mpr]
  exact fun k hk => decide_eq_true (hnew k hk)

/-! ## Equal lists -/

theorem get?_eq_none (h : k ∉ keys m) : get? k m = none := by
  induction m with
  | nil => rfl
  | cons e rest ih =>
    obtain ⟨key, b⟩ := e
    have hne : key ≠ k := fun heq => h (heq ▸ List.mem_cons_self ..)
    rw [get?, if_neg hne]
    exact ih fun hmem => h (List.mem_cons_of_mem _ hmem)

theorem get?_isSome_iff : (get? k m).isSome ↔ k ∈ keys m := by
  induction m with
  | nil => simp [get?, keys]
  | cons e rest ih =>
    obtain ⟨key, b⟩ := e
    by_cases hkey : key = k
    · simp [get?, keys, hkey]
    · have hne : k ≠ key := fun h => hkey h.symm
      rw [get?, if_neg hkey, ih]
      simp [keys, hne]

theorem mem_keys_of_get? (h : get? k m = some a) : k ∈ keys m :=
  get?_isSome_iff.mp (Option.isSome_of_mem h)

theorem exists_get?_of_mem (h : k ∈ keys m) : ∃ a, get? k m = some a :=
  Option.isSome_iff_exists.mp (get?_isSome_iff.mpr h)

theorem get?_eq_none_iff : get? k m = none ↔ k ∉ keys m := by
  rw [← get?_isSome_iff, Option.not_isSome_iff_eq_none]

theorem get?_append (k : String) (l m : List (String × α)) :
    get? k (l ++ m) = (get? k l).or (get? k m) := by
  induction l with
  | nil => rfl
  | cons e rest ih =>
    obtain ⟨key, b⟩ := e
    by_cases hkey : key = k
    · rw [List.cons_append, get?, if_pos hkey, get?, if_pos hkey, Option.some_or]
    · rw [List.cons_append, get?, if_neg hkey, get?, if_neg hkey, ih]

theorem mem_of_get? (h : get? k m = some a) : (k, a) ∈ m := by
  induction m with
  | nil => cases h
  | cons e rest ih =>
    obtain ⟨key, b⟩ := e
    by_cases hkey : key = k
    · rw [get?, if_pos hkey] at h
      cases h
      exact hkey ▸ List.mem_cons_self ..
    · rw [get?, if_neg hkey] at h
      exact List.mem_cons_of_mem _ (ih h)

theorem get?_of_mem (h : (keys m).Nodup) (hmem : (k, a) ∈ m) : get? k m = some a := by
  induction m with
  | nil => cases hmem
  | cons e rest ih =>
    obtain ⟨key, b⟩ := e
    have hn : key ∉ keys rest ∧ (keys rest).Nodup := List.nodup_cons.mp h
    rcases List.mem_cons.mp hmem with heq | hrest
    · cases heq
      rw [get?, if_pos rfl]
    · have hne : key ≠ k := by
        rintro rfl
        exact hn.1 (List.mem_map_of_mem hrest)
      rw [get?, if_neg hne]
      exact ih hn.2 hrest

/-- Lists with distinct names are told apart by their names and values. -/
theorem ext (hl : (keys l).Nodup) (hm : (keys m).Nodup) (hkeys : keys l = keys m)
    (hget : ∀ k, get? k l = get? k m) : l = m := by
  have hfst : l.map Prod.fst = m.map Prod.fst := hkeys
  refine List.ext_getElem ?_ fun i h₁ h₂ => ?_
  · have := congrArg List.length hfst
    rwa [List.length_map, List.length_map] at this
  · have hkey : l[i].1 = m[i].1 := by
      have hi := List.getElem_of_eq hfst (i := i) (by rwa [List.length_map])
      rwa [List.getElem_map, List.getElem_map] at hi
    have hvl : get? l[i].1 l = some l[i].2 := get?_of_mem hl (List.getElem_mem h₁)
    have hvm : get? m[i].1 m = some m[i].2 := get?_of_mem hm (List.getElem_mem h₂)
    rw [hget, hkey, hvm] at hvl
    exact Prod.ext hkey (Option.some.inj hvl).symm

/-- What stands under a name does not depend on the order of the entries, if no name stands
twice. -/
theorem get?_perm (hl : (keys l).Nodup) (h : l.Perm m) (k : String) : get? k l = get? k m := by
  have hm : (keys m).Nodup := (h.map Prod.fst).nodup_iff.mp hl
  cases hk : get? k m with
  | some a => exact get?_of_mem hl (h.mem_iff.mpr (mem_of_get? hk))
  | none => exact get?_eq_none fun hmem =>
      get?_eq_none_iff.mp hk ((h.map Prod.fst).mem_iff.mp hmem)

/-- Lists with distinct names and the same values under them differ in their order at most. -/
theorem perm_of_get? (hl : (keys l).Nodup) (hm : (keys m).Nodup)
    (h : ∀ k, get? k l = get? k m) : l.Perm m := by
  refine (List.perm_ext_iff_of_nodup hl.of_map hm.of_map).mpr fun ⟨k, a⟩ => ?_
  constructor
  · exact fun hmem => mem_of_get? ((h k).symm.trans (get?_of_mem hl hmem))
  · exact fun hmem => mem_of_get? ((h k).trans (get?_of_mem hm hmem))

/-! ## The last entry under a name -/

/-- The last entry under a name. -/
def last? (name : String) (entries : List (String × α)) : Option α := get? name entries.reverse

theorem last?_cons (k : String) (e : String × α) (rest : List (String × α)) :
    last? k (e :: rest) = (last? k rest).or (if e.1 = k then some e.2 else none) := by
  rw [last?, List.reverse_cons, get?_append]
  rfl

theorem mem_of_last? (h : last? k m = some a) : (k, a) ∈ m := List.mem_reverse.mp (mem_of_get? h)

theorem last?_eq_none_iff : last? k m = none ↔ k ∉ keys m := by
  rw [last?, get?_eq_none_iff, keys, List.map_reverse, List.mem_reverse]
  rfl

theorem last?_eq_some_iff : last? k m = some a ↔
    ∃ before after, m = before ++ (k, a) :: after ∧ k ∉ keys after := by
  constructor
  · intro h
    induction m with
    | nil => cases h
    | cons e rest ih =>
      rw [last?_cons] at h
      cases hrest : last? k rest with
      | some b =>
        rw [hrest, Option.some_or] at h
        obtain ⟨before, after, heq, hafter⟩ := ih (hrest.trans h)
        exact ⟨e :: before, after, heq ▸ rfl, hafter⟩
      | none =>
        rw [hrest, Option.none_or] at h
        obtain ⟨hkey, ha⟩ := Option.ite_none_right_eq_some.mp h
        cases hkey
        cases ha
        exact ⟨[], rest, rfl, last?_eq_none_iff.mp hrest⟩
  · rintro ⟨before, after, rfl, hafter⟩
    have hnone : get? k after.reverse = none := last?_eq_none_iff.mpr hafter
    rw [last?, List.reverse_append, List.reverse_cons, get?_append, get?_append, hnone,
      Option.none_or, get?, if_pos rfl, Option.some_or]

/-- Where no name stands twice the last entry is the only one. -/
theorem last?_of_nodup (h : (keys m).Nodup) (k : String) : last? k m = get? k m :=
  (get?_perm h m.reverse_perm.symm k).symm

/-! ## Many insertions -/

@[simp] theorem insertAll_nil (m : List (String × α)) : insertAll m [] = m := rfl

@[simp] theorem insertAll_cons (m : List (String × α)) (e : String × α)
    (rest : List (String × α)) :
    insertAll m (e :: rest) = insertAll (insert e.1 e.2 m) rest := rfl

theorem keys_insertAll (m new : List (String × α)) :
    keys (insertAll m new) = (keys new).foldl addKey (keys m) := by
  induction new generalizing m with
  | nil => rfl
  | cons e rest ih => rw [insertAll_cons, ih, keys_insert]; rfl

theorem nodup_keys_insertAll (h : (keys m).Nodup) (new : List (String × α)) :
    (keys (insertAll m new)).Nodup := by
  rw [keys_insertAll]
  exact nodup_foldl_addKey h

theorem map_insertAll (f : α → β) (m new : List (String × α)) :
    (insertAll m new).map (fun e => (e.1, f e.2)) =
      insertAll (m.map fun e => (e.1, f e.2)) (new.map fun e => (e.1, f e.2)) := by
  induction new generalizing m with
  | nil => rfl
  | cons e rest ih => rw [insertAll_cons, ih, map_insert]; rfl

/-- **The last value that is inserted under a name is the one that stays.** -/
theorem get?_insertAll_eq_last? (m new : List (String × α)) (k : String) :
    get? k (insertAll m new) = (last? k new).or (get? k m) := by
  induction new generalizing m with
  | nil => rfl
  | cons e rest ih =>
    rw [insertAll_cons, ih, get?_insert, last?_cons, Option.or_assoc]
    congr 1
    by_cases hkey : e.1 = k
    · rw [if_pos hkey, if_pos hkey, Option.some_or]
    · rw [if_neg hkey, if_neg hkey, Option.none_or]

/-- Insertions that agree with a table of values leave the values of that table. -/
theorem get?_insertAll (table : String → Option α) {new : List (String × α)}
    (h : ∀ e ∈ new, table e.1 = some e.2) (m : List (String × α)) (k : String) :
    get? k (insertAll m new) = if k ∈ keys new then table k else get? k m := by
  rw [get?_insertAll_eq_last?]
  cases hlast : last? k new with
  | none => rw [if_neg (last?_eq_none_iff.mp hlast), Option.none_or]
  | some a =>
    have hmem : (k, a) ∈ new := mem_of_last? hlast
    have hkey : k ∈ keys new := List.mem_map_of_mem hmem
    rw [if_pos hkey, h _ hmem, Option.some_or]

/-- Names stay where they are, and new ones come after them. -/
theorem keys_prefix_insertAll (m new : List (String × α)) : keys m <+: keys (insertAll m new) := by
  rw [keys_insertAll]
  exact prefix_foldl_addKey (keys m) (keys new)

theorem get?_insertAll_of_notMem {new : List (String × α)} (h : k ∉ keys new)
    (m : List (String × α)) : get? k (insertAll m new) = get? k m := by
  rw [get?_insertAll_eq_last?, last?_eq_none_iff.mpr h, Option.none_or]

/-- Insertions under distinct names leave their own values. -/
theorem get?_insertAll_of_nodup {new : List (String × α)} (h : (keys new).Nodup)
    (m : List (String × α)) (k : String) :
    get? k (insertAll m new) = (get? k new).or (get? k m) := by
  rw [get?_insertAll_eq_last?, last?_of_nodup h]

theorem keys_ofList (entries : List (String × α)) :
    keys (ofList entries) = (keys entries).foldl addKey [] := keys_insertAll [] entries

theorem nodup_keys_ofList (entries : List (String × α)) : (keys (ofList entries)).Nodup := by
  rw [keys_ofList]
  exact nodup_foldl_addKey List.nodup_nil

theorem mem_keys_ofList : k ∈ keys (ofList m) ↔ k ∈ keys m := by
  rw [keys_ofList, mem_foldl_addKey_nil]

theorem get?_ofList (k : String) (m : List (String × α)) : get? k (ofList m) = last? k m := by
  rw [ofList, get?_insertAll_eq_last?]
  exact Option.or_none

theorem get?_of_mem_ofList (table : String → Option α) {new : List (String × α)}
    (h : ∀ e ∈ new, table e.1 = some e.2) : ∀ e ∈ ofList new, table e.1 = some e.2 := by
  intro e he
  have hget : get? e.1 (ofList new) = some e.2 := get?_of_mem (nodup_keys_ofList new) he
  rw [get?_ofList] at hget
  exact h _ (mem_of_last? hget)

/-- Nothing is to be done to a list with distinct names. -/
theorem ofList_eq_self (h : (keys m).Nodup) : ofList m = m := by
  refine ext (nodup_keys_ofList m) h ?_ fun k => ?_
  · rw [keys_ofList, foldl_addKey_of_disjoint h fun k _ => List.not_mem_nil]
    rfl
  · rw [get?_ofList, last?_of_nodup h]

end HttpSuite.Entries
