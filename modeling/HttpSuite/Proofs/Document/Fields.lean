import HttpSuite.Document.Fields
import HttpSuite.Proofs.Actions
import HttpSuite.Proofs.Entries
import Mathlib.Data.List.Forall2

/-!
# Fields in any order

A node gives its fields as a mapping or as a list of mappings, with keys in any letter case
(`Fields.Declares`).  They are then set one after the other on a record.  Whether their order
matters is decided slot by slot: a `Slot` of the record belongs to some keys, mostly one, and it
`IsSetBy` the fields if those under its keys update it and no other field touches it.  Then its
value in the end is determined by its own fields (`Slot.get_eq_of_own`), wherever they stand.

Whether setting the fields succeeds at all does not depend on their order either, if no field is at
fault because of what others have set (`Slot.exists_foldlM_of_perm`).
-/

namespace HttpSuite

/-! ## What a node declares -/

namespace Fields

def lowerKeys (entries : Mapping) : Mapping := entries.map fun e => (lower e.1, e.2)

/-- The fields of a node in reading order, their keys in small letters. -/
inductive Declares : Value → Mapping → Prop where
  | nothing : Declares .null []
  | mapping (entries : Mapping) : Declares (.object entries) (lowerKeys entries)
  | list (parts : List Mapping) :
      Declares (.array (parts.map Value.object)) (lowerKeys parts.flatten)

variable {node v : Value} {fields : Mapping}

theorem keys_lowerKeys (entries : Mapping) :
    Entries.keys (lowerKeys entries) = (Entries.keys entries).map lower := by
  rw [Entries.keys, Entries.keys, lowerKeys, List.map_map, List.map_map]
  rfl

theorem entries_list (parts : List Mapping) (part : String) :
    Fields.entries (.array (parts.map Value.object)) part = .ok parts.flatten := by
  have hparts : (parts.map Value.object).mapM (entriesOf part) = .ok parts :=
    mapM_eq_ok_iff.mpr (List.forall₂_map_left_iff.mpr (List.forall₂_same.mpr fun _ _ => rfl))
  rw [Fields.entries, hparts]
  rfl

theorem exists_entries (h : Declares node fields) (part : String) :
    ∃ entries, Fields.entries node part = .ok entries ∧ fields = lowerKeys entries := by
  cases h with
  | nothing => exact ⟨[], rfl, rfl⟩
  | mapping entries => exact ⟨entries, rfl, rfl⟩
  | list parts => exact ⟨parts.flatten, entries_list parts part, rfl⟩

/-- Entries are taken in two passes: as they are written, and then with their keys in small
letters. -/
theorem lowered_eq_ofList {entries : Mapping} {part : String}
    (h : Fields.entries node part = .ok entries) :
    lowered node part = .ok (Entries.ofList (lowerKeys (Entries.ofList entries))) := by
  rw [lowered, ofValue, h]
  rfl

/-- Fields with distinct keys are taken as they are declared. -/
theorem Declares.lowered_eq (h : Declares node fields) (hnodup : (Entries.keys fields).Nodup)
    (part : String) : lowered node part = .ok fields := by
  obtain ⟨entries, hentries, rfl⟩ := exists_entries h part
  have hkeys := keys_lowerKeys entries ▸ hnodup
  rw [lowered_eq_ofList hentries, Entries.ofList_eq_self hkeys.of_map,
    Entries.ofList_eq_self hnodup]

theorem nodup_keys_of_ofValue {part : String} (h : ofValue v part = .ok fields) :
    (Entries.keys fields).Nodup := by
  obtain ⟨entries, -, rfl⟩ := Except.eq_ok_of_map h
  exact Entries.nodup_keys_ofList entries

end Fields

/-! ## Slots -/

/-- A part of a record that belongs to the fields under some keys, each of which updates it. -/
structure Slot (σ : Type) where
  α : Type
  keys : List String
  get : σ → α
  update : Value → α → Except CompileError α

namespace Slot

variable {σ : Type} {step : σ → String → Value → Except CompileError σ}
  {admits : String → Value → Prop} {f : Slot σ} {s s' t : σ} {fields fields' : Mapping}
  {key : String} {v : Value}

/-- The fields that belong to a slot, in their order. -/
def own (f : Slot σ) (fields : Mapping) : Mapping := fields.filter fun e => e.1 ∈ f.keys

/-- A field that belongs to the slot updates it, and any other field leaves it alone.  This may be
asked of some fields only. -/
def IsSetBy (f : Slot σ) (step : σ → String → Value → Except CompileError σ)
    (admits : String → Value → Prop) : Prop :=
  ∀ s s' key v, admits key v → step s key v = .ok s' →
    if key ∈ f.keys then f.update v (f.get s) = .ok (f.get s') else f.get s' = f.get s

/-- A slot after all fields: its own fields have updated it, one after the other. -/
theorem get_foldlM (hf : f.IsSetBy step admits) (hadmits : ∀ e ∈ fields, admits e.1 e.2)
    (hrun : fields.foldlM (fun s e => step s e.1 e.2) s = .ok s') :
    (f.own fields).foldlM (fun a e => f.update e.2 a) (f.get s) = .ok (f.get s') := by
  unfold own
  induction fields generalizing s with
  | nil =>
    cases hrun
    rfl
  | cons e rest ih =>
    obtain ⟨hadmits, hadmits'⟩ := List.forall_mem_cons.mp hadmits
    rw [List.foldlM_cons] at hrun
    obtain ⟨s₁, hfirst, hrun⟩ := Except.eq_ok_of_bind hrun
    have hfirst := hf s s₁ e.1 e.2 hadmits hfirst
    have hrest := ih hadmits' hrun
    by_cases hown : e.1 ∈ f.keys
    · rw [if_pos hown] at hfirst
      rw [List.filter_cons_of_pos (by simpa using hown), List.foldlM_cons, hfirst]
      exact hrest
    · rw [if_neg hown] at hfirst
      rwa [List.filter_cons_of_neg (by simpa using hown), ← hfirst]

/-- **A slot depends on its own fields only**, wherever they stand among the others. -/
theorem get_eq_of_own (hf : f.IsSetBy step admits) (hadmits : ∀ e ∈ fields, admits e.1 e.2)
    (hadmits' : ∀ e ∈ fields', admits e.1 e.2) (hown : f.own fields = f.own fields')
    (hrun : fields.foldlM (fun s e => step s e.1 e.2) s = .ok s')
    (hrun' : fields'.foldlM (fun s e => step s e.1 e.2) s = .ok t) : f.get s' = f.get t := by
  have hget := get_foldlM hf hadmits hrun
  rw [hown, get_foldlM hf hadmits' hrun'] at hget
  exact (Except.ok.inj hget).symm

/-- A slot with one key has one field at most. -/
theorem own_eq (hkeys : f.keys = [key]) (hnodup : (Entries.keys fields).Nodup) :
    f.own fields = ((Entries.get? key fields).map fun v => (key, v)).toList := by
  unfold own
  rw [hkeys]
  simp only [List.mem_singleton]
  induction fields with
  | nil => rfl
  | cons e rest ih =>
    obtain ⟨k, v⟩ := e
    obtain ⟨hk, hrest⟩ : k ∉ Entries.keys rest ∧ (Entries.keys rest).Nodup :=
      List.nodup_cons.mp hnodup
    by_cases hown : k = key
    · subst hown
      rw [List.filter_cons_of_pos (by simp), ih hrest, Entries.get?_eq_none hk, Entries.get?,
        if_pos rfl]
      rfl
    · rw [List.filter_cons_of_neg (by simpa using hown), ih hrest, Entries.get?, if_neg hown]

theorem own_perm (hkeys : f.keys = [key]) (hnodup : (Entries.keys fields).Nodup)
    (hperm : fields.Perm fields') : f.own fields = f.own fields' := by
  rw [own_eq hkeys hnodup, own_eq hkeys ((hperm.map Prod.fst).nodup_iff.mp hnodup),
    Entries.get?_perm hnodup hperm]

/-- A slot with one key, where there is a field under that key. -/
theorem update_of_mem (hf : f.IsSetBy step admits) (hadmits : ∀ e ∈ fields, admits e.1 e.2)
    (hkeys : f.keys = [key]) (hnodup : (Entries.keys fields).Nodup) (hv : (key, v) ∈ fields)
    (hrun : fields.foldlM (fun s e => step s e.1 e.2) s = .ok s') :
    f.update v (f.get s) = .ok (f.get s') := by
  have hget := get_foldlM hf hadmits hrun
  rw [own_eq hkeys hnodup, Entries.get?_of_mem hnodup hv] at hget
  obtain ⟨a, ha, hend⟩ := Except.eq_ok_of_bind hget
  cases hend
  exact ha

/-! ## Faults -/

/-- A field that is at fault is so whatever else has been set. -/
def Steady (step : σ → String → Value → Except CompileError σ) : Prop :=
  ∀ s t key v s', step s key v = .ok s' → ∃ t', step t key v = .ok t'

theorem exists_foldlM_iff (h : Steady step) (s : σ) :
    (∃ s', fields.foldlM (fun s e => step s e.1 e.2) s = .ok s') ↔
      ∀ e ∈ fields, ∃ s', step s e.1 e.2 = .ok s' := by
  constructor
  · rintro ⟨s', hrun⟩ e he
    obtain ⟨s₀, s₁, hstep⟩ := Except.exists_of_foldlM hrun he
    exact h s₀ s e.1 e.2 s₁ hstep
  · intro hall
    induction fields generalizing s with
    | nil => exact ⟨s, rfl⟩
    | cons e rest ih =>
      obtain ⟨⟨s₁, hfirst⟩, hrest⟩ := List.forall_mem_cons.mp hall
      obtain ⟨s', hrun⟩ := ih s₁ fun e he => by
        obtain ⟨s₂, hstep⟩ := hrest e he
        exact h s s₁ e.1 e.2 s₂ hstep
      refine ⟨s', ?_⟩
      rw [List.foldlM_cons, hfirst]
      exact hrun

/-- **Whether the fields can be set does not depend on their order.** -/
theorem exists_foldlM_of_perm (h : Steady step) (hperm : fields.Perm fields')
    (hrun : fields.foldlM (fun s e => step s e.1 e.2) s = .ok s') :
    ∃ t, fields'.foldlM (fun s e => step s e.1 e.2) s = .ok t := by
  have hall := (exists_foldlM_iff h s).mp ⟨s', hrun⟩
  exact (exists_foldlM_iff h s).mpr fun e he => hall e (hperm.mem_iff.mpr he)

end Slot

end HttpSuite
