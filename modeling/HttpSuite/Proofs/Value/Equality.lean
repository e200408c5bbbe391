import HttpSuite.Check.Comparator
import HttpSuite.Proofs.Entries
import Mathlib.Data.Int.Order.Basic
import Mathlib.Data.List.Forall2
import Mathlib.Data.List.Perm.Subperm

/-!
# Equality of nested values

`Value.Alike R` says, along the shape of two values, that they differ at most in numbers, and that
numbers at the same places are related by `R`.  Arrays are compared item by item, and mappings key
by key without regard to order.  Two relations of numbers matter.  Numbers are `Number.Equal` if
their binary64 views are of one size, and `Number.Same` if they are of one kind as well and an
integer is not rounded.

## The two equalities

`Value.same` is `Alike Same` (`Value.same_iff_alike`).  `Value.equal` differs from it at one place:
two numbers at the top are compared by `Equal` (`Value.equal_iff_alike`).  Below the top they are
compared by `Same`.  So equal values at one place of a larger value keep it equal unless they
`Value.Clash`, which means that they are numbers that are equal and not the same.  An integer and
the float of its size clash, and so do integers beyond `2 ^ 53` that are rounded alike.

Mappings have each key once, and `Value.IsProper` says so of all mappings in a value.
-/

namespace HttpSuite

/-! ## Numbers -/

namespace Number

/-- Numbers of one size as binary64 numbers. -/
def Equal (a b : Number) : Prop := a.toBinary64.toInt = b.toBinary64.toInt

/-- The kind of a number and its size, that of an integer not rounded. -/
def exact : Number → Int ⊕ Int
  | .int i => .inl i
  | .float x => .inr x.toInt

/-- Numbers of one kind and one size. -/
def Same (a b : Number) : Prop := a.exact = b.exact

variable {a b c : Number}

theorem compare_iff : (a.compare b == .eq) = true ↔ Equal a b := by
  rw [beq_iff_eq]
  change Ord.compare a.toBinary64.toInt b.toBinary64.toInt = .eq ↔ _
  exact compare_eq_iff_eq

theorem same_iff : a.same b = true ↔ Same a b := by
  cases a with
  | int i =>
    cases b with
    | int j => simp [same, Same, exact]
    | float y => simp [same, Same, exact]
  | float x =>
    cases b with
    | int j => simp [same, Same, exact]
    | float y =>
      have hcompare := compare_iff (a := .float x) (b := .float y)
      rw [Same, exact, exact, Sum.inr.injEq]
      exact hcompare

theorem Same.equal (h : Same a b) : Equal a b := by
  cases a with
  | int i =>
    cases b with
    | int j => rw [Sum.inl.inj h]; rfl
    | float y => cases h
  | float x =>
    cases b with
    | int j => cases h
    | float y => exact Sum.inr.inj h

end Number

namespace Value

/-! ## Values of one shape -/

/-- Values that differ at most in numbers, those at the same places being related. -/
inductive Alike (R : Number → Number → Prop) : Value → Value → Prop where
  | null : Alike R .null .null
  | bool (b : Bool) : Alike R (.bool b) (.bool b)
  | string (s : String) : Alike R (.string s) (.string s)
  | number {a b : Number} (h : R a b) : Alike R (.number a) (.number b)
  | array {xs ys : List Value} (hlength : xs.length = ys.length)
      (h : ∀ v w, (v, w) ∈ xs.zip ys → Alike R v w) : Alike R (.array xs) (.array ys)
  | object {m n : Mapping} (hkeys : ∀ k, k ∈ Entries.keys m ↔ k ∈ Entries.keys n)
      (h : ∀ k v w, Entries.get? k m = some v → Entries.get? k n = some w → Alike R v w) :
      Alike R (.object m) (.object n)

/-- All mappings in a value have each key once. -/
inductive IsProper : Value → Prop where
  | null : IsProper .null
  | bool (b : Bool) : IsProper (.bool b)
  | string (s : String) : IsProper (.string s)
  | number (n : Number) : IsProper (.number n)
  | array {items : List Value} (h : ∀ v ∈ items, IsProper v) : IsProper (.array items)
  | object {fields : Mapping} (hkeys : (Entries.keys fields).Nodup)
      (h : ∀ e ∈ fields, IsProper e.2) : IsProper (.object fields)

variable {R S : Number → Number → Prop} {u v w : Value} {xs ys : List Value} {m n : Mapping}

theorem Alike.mono (hRS : ∀ a b, R a b → S a b) (h : Alike R v w) : Alike S v w := by
  induction h with
  | null => exact .null
  | bool b => exact .bool b
  | string s => exact .string s
  | number h => exact .number (hRS _ _ h)
  | array hlength _ ih => exact .array hlength ih
  | object hkeys _ ih => exact .object hkeys ih

theorem alike_array_iff :
    Alike R (.array xs) (.array ys) ↔ List.Forall₂ (Alike R) xs ys := by
  rw [List.forall₂_iff_zip]
  constructor
  · intro h
    cases h with
    | array hlength h => exact ⟨hlength, h _ _⟩
  · rintro ⟨hlength, h⟩
    exact .array hlength fun _ _ => h

theorem alike_object_iff : Alike R (.object m) (.object n) ↔
    (∀ k, k ∈ Entries.keys m ↔ k ∈ Entries.keys n) ∧
      ∀ k v w, Entries.get? k m = some v → Entries.get? k n = some w → Alike R v w := by
  constructor
  · intro h
    cases h with
    | object hkeys h => exact ⟨hkeys, h⟩
  · rintro ⟨hkeys, h⟩
    exact .object hkeys h

theorem Alike.refl (hR : ∀ a, R a a) (hv : IsProper v) : Alike R v v := by
  induction hv with
  | null => exact .null
  | bool b => exact .bool b
  | string s => exact .string s
  | number n => exact .number (hR n)
  | array _ ih => exact alike_array_iff.mpr (List.forall₂_same.mpr ih)
  | object _ _ ih =>
    refine .object (fun _ => Iff.rfl) fun k v w hv hw => ?_
    obtain rfl : v = w := Option.some.inj (hv.symm.trans hw)
    exact ih _ (Entries.mem_of_get? hv)

theorem Alike.symm (hR : ∀ a b, R a b → R b a) (h : Alike R v w) : Alike R w v := by
  induction h with
  | null => exact .null
  | bool b => exact .bool b
  | string s => exact .string s
  | number h => exact .number (hR _ _ h)
  | array hlength _ ih =>
    have hflipped : List.Forall₂ (flip (Alike R)) _ _ :=
      List.forall₂_iff_zip.mpr ⟨hlength, fun {a b} => ih a b⟩
    exact alike_array_iff.mpr hflipped.flip
  | object hkeys _ ih => exact .object (fun k => (hkeys k).symm) fun k v w hv hw => ih k w v hw hv

theorem forall₂_trans {α : Type} {P Q Z : α → α → Prop}
    (h : ∀ a b c, P a b → Q b c → Z a c) {l₁ l₂ l₃ : List α} (h₁ : List.Forall₂ P l₁ l₂)
    (h₂ : List.Forall₂ Q l₂ l₃) : List.Forall₂ Z l₁ l₃ := by
  induction h₁ generalizing l₃ with
  | nil => cases h₂; exact .nil
  | cons hab _ ih =>
    cases h₂ with
    | cons hbc hrest => exact .cons (h _ _ _ hab hbc) (ih hrest)

theorem Alike.trans (hR : ∀ a b c, R a b → R b c → R a c) (h : Alike R u v)
    (h' : Alike R v w) : Alike R u w := by
  induction h generalizing w with
  | null => exact h'
  | bool b => exact h'
  | string s => exact h'
  | number h =>
    cases h' with
    | number h' => exact .number (hR _ _ _ h h')
  | array hlength _ ih =>
    cases h' with
    | array hlength' h' =>
      have hfirst := List.forall₂_iff_zip.mpr ⟨hlength, fun {a b} => ih a b⟩
      have hsecond := List.forall₂_iff_zip.mpr ⟨hlength', fun {a b} => h' a b⟩
      exact alike_array_iff.mpr (forall₂_trans (fun _ _ _ hab hbc => hab hbc) hfirst hsecond)
  | object hkeys _ ih =>
    cases h' with
    | object hkeys' h' =>
      refine .object (fun k => (hkeys k).trans (hkeys' k)) fun k v w hv hw => ?_
      have hmem := (hkeys k).mp (Entries.mem_keys_of_get? hv)
      obtain ⟨y, hy⟩ := Entries.exists_get?_of_mem hmem
      exact ih k v y hv hy (h' k y w hy hw)

/-! ## What is computed -/

theorem sameItems_iff :
    sameItems xs ys = true ↔ List.Forall₂ (fun v w => v.same w = true) xs ys := by
  induction xs generalizing ys with
  | nil => cases ys <;> simp [sameItems]
  | cons x xs ih =>
    cases ys with
    | nil => simp [sameItems]
    | cons y ys => rw [sameItems, Bool.and_eq_true, ih, List.forall₂_cons]

theorem sameFields_iff : sameFields m n = true ↔
    ∀ e ∈ m, ∃ w, Entries.get? e.1 n = some w ∧ e.2.same w = true := by
  induction m with
  | nil => simp [sameFields]
  | cons e rest ih =>
    obtain ⟨key, v⟩ := e
    rw [sameFields, Bool.and_eq_true, ih, List.forall_mem_cons]
    refine and_congr_left fun _ => ?_
    cases Entries.get? key n with
    | none => simp
    | some w => simp

/-- Mappings with each key once are the same if they have the same keys and the same under each. -/
theorem same_object_iff (hm : (Entries.keys m).Nodup) (hn : (Entries.keys n).Nodup) :
    (Value.object m).same (.object n) = true ↔
      (∀ k, k ∈ Entries.keys m ↔ k ∈ Entries.keys n) ∧
      ∀ k v w, Entries.get? k m = some v → Entries.get? k n = some w → v.same w = true := by
  have hlengths : ∀ fields : Mapping, (Entries.keys fields).length = fields.length :=
    fun fields => List.length_map ..
  rw [same, Bool.and_eq_true, beq_iff_eq, sameFields_iff]
  constructor
  · rintro ⟨hlength, hfields⟩
    have hsubset : Entries.keys m ⊆ Entries.keys n := by
      intro k hk
      obtain ⟨e, he, rfl⟩ := List.mem_map.mp hk
      obtain ⟨w, hw, -⟩ := hfields e he
      exact Entries.mem_keys_of_get? hw
    -- as many keys, each once and each among the others
    have hperm : (Entries.keys m).Perm (Entries.keys n) := by
      refine (List.subperm_of_subset hm hsubset).perm_of_length_le ?_
      rw [hlengths, hlengths]
      exact Nat.le_of_eq hlength.symm
    refine ⟨fun k => hperm.mem_iff, fun k v w hv hw => ?_⟩
    obtain ⟨w', hw', hsame⟩ := hfields (k, v) (Entries.mem_of_get? hv)
    obtain rfl : w' = w := Option.some.inj (hw'.symm.trans hw)
    exact hsame
  · rintro ⟨hkeys, hfields⟩
    have hperm := (List.perm_ext_iff_of_nodup hm hn).mpr hkeys
    refine ⟨?_, fun e he => ?_⟩
    · rw [← hlengths, ← hlengths, hperm.length_eq]
    · have hv := Entries.get?_of_mem hm he
      have hmem := (hkeys e.1).mp (List.mem_map_of_mem he)
      obtain ⟨w, hw⟩ := Entries.exists_get?_of_mem hmem
      exact ⟨w, hw, hfields e.1 e.2 w hv hw⟩

/-- **Equality by representation compares numbers by kind and size at every depth.** -/
theorem same_iff_alike (hv : IsProper v) (hw : IsProper w) :
    v.same w = true ↔ Alike Number.Same v w := by
  induction hv generalizing w with
  | null =>
    cases w with
    | null => exact iff_of_true rfl .null
    | bool | number | string | array | object => exact iff_of_false nofun nofun
  | bool b =>
    cases w with
    | bool c =>
      rw [same, beq_iff_eq]
      exact ⟨fun h => h ▸ .bool b, fun h => by cases h; rfl⟩
    | null | number | string | array | object => exact iff_of_false nofun nofun
  | string s =>
    cases w with
    | string t =>
      rw [same, beq_iff_eq]
      exact ⟨fun h => h ▸ .string s, fun h => by cases h; rfl⟩
    | null | bool | number | array | object => exact iff_of_false nofun nofun
  | number a =>
    cases w with
    | number b =>
      rw [same, Number.same_iff]
      exact ⟨.number, fun h => by cases h with | number h => exact h⟩
    | null | bool | string | array | object => exact iff_of_false nofun nofun
  | @array xs _ ih =>
    cases hw with
    | @array ys hys =>
      rw [alike_array_iff, same, sameItems_iff, List.forall₂_iff_zip, List.forall₂_iff_zip]
      refine and_congr_right fun _ => forall₂_congr fun v w => imp_congr_right fun hmem => ?_
      obtain ⟨hv, hw⟩ := List.of_mem_zip hmem
      exact ih v hv (hys w hw)
    | null | bool | number | string | object => exact iff_of_false nofun nofun
  | @object m hm _ ih =>
    cases hw with
    | @object n hn hys =>
      rw [same_object_iff hm hn, alike_object_iff]
      exact and_congr_right fun _ => forall₅_congr fun k v w hv hw =>
        ih (k, v) (Entries.mem_of_get? hv) (hys (k, w) (Entries.mem_of_get? hw))
    | null | bool | number | string | array => exact iff_of_false nofun nofun

/-! ## Equality at the top -/

/-- Numbers that are equal and not the same. -/
def Clash (v w : Value) : Prop :=
  ∃ a b, v = .number a ∧ w = .number b ∧ Number.Equal a b ∧ ¬ Number.Same a b

theorem equal_number {a b : Number} :
    (Value.number a).equal (.number b) = true ↔ Number.Equal a b := Number.compare_iff

/-- Values that are not both numbers are equal if and only if they are the same. -/
theorem equal_eq_same (h : ∀ a b, v = .number a → w ≠ .number b) : v.equal w = v.same w := by
  cases v with
  | number a =>
    cases w with
    | number b => exact absurd rfl (h a b rfl)
    | null | bool | string | array | object => rfl
  | null | bool | string | array | object => rfl

theorem same_iff_equal : v.same w = true ↔ v.equal w = true ∧ ¬ Clash v w := by
  by_cases h : ∃ a b, v = .number a ∧ w = .number b
  · obtain ⟨a, b, rfl, rfl⟩ := h
    rw [same, Number.same_iff, equal_number]
    constructor
    · intro hsame
      refine ⟨hsame.equal, ?_⟩
      rintro ⟨_, _, ha, hb, -, hnot⟩
      cases ha
      cases hb
      exact hnot hsame
    · rintro ⟨hequal, hclash⟩
      by_contra hnot
      exact hclash ⟨a, b, rfl, rfl, hequal, hnot⟩
  · have hclash : ¬ Clash v w := fun ⟨a, b, hv, hw, _⟩ => h ⟨a, b, hv, hw⟩
    rw [equal_eq_same fun a b hv hw => h ⟨a, b, hv, hw⟩]
    exact ⟨fun hsame => ⟨hsame, hclash⟩, fun hequal => hequal.1⟩

theorem isNumber_iff : v.isNumber = true ↔ ∃ a, v = .number a := by
  cases v <;> simp [isNumber, number?]

theorem Alike.isNumber_eq (h : Alike R v w) : v.isNumber = w.isNumber := by
  cases h <;> rfl

/-- **Equal values have equal numbers at all places, and the same numbers below the top.** -/
theorem equal_iff_alike (hv : IsProper v) (hw : IsProper w) : v.equal w = true ↔
    Alike Number.Equal v w ∧ (v.isNumber = true ∨ Alike Number.Same v w) := by
  by_cases h : ∃ a b, v = .number a ∧ w = .number b
  · obtain ⟨a, b, rfl, rfl⟩ := h
    rw [equal_number]
    constructor
    · exact fun hequal => ⟨.number hequal, .inl rfl⟩
    · rintro ⟨halike, -⟩
      cases halike with
      | number hequal => exact hequal
  · rw [equal_eq_same fun a b hv hw => h ⟨a, b, hv, hw⟩, same_iff_alike hv hw]
    constructor
    · exact fun hsame => ⟨hsame.mono fun _ _ => Number.Same.equal, .inr hsame⟩
    · rintro ⟨halike, hnumber | hsame⟩
      · obtain ⟨a, rfl⟩ := isNumber_iff.mp hnumber
        cases halike with
        | number _ => exact absurd ⟨a, _, rfl, rfl⟩ h
      · exact hsame

/-! ## An equivalence -/

theorem equal_refl (hv : IsProper v) : v.equal v = true :=
  (equal_iff_alike hv hv).mpr ⟨Alike.refl (fun _ => rfl) hv, .inr (Alike.refl (fun _ => rfl) hv)⟩

theorem same_refl (hv : IsProper v) : v.same v = true :=
  (same_iff_alike hv hv).mpr (Alike.refl (fun _ => rfl) hv)

theorem equal_symm (hv : IsProper v) (hw : IsProper w) (h : v.equal w = true) :
    w.equal v = true := by
  obtain ⟨halike, hsame⟩ := (equal_iff_alike hv hw).mp h
  refine (equal_iff_alike hw hv).mpr ⟨halike.symm fun _ _ => Eq.symm, ?_⟩
  rw [← halike.isNumber_eq]
  exact hsame.imp_right fun hsame => hsame.symm fun _ _ => Eq.symm

theorem equal_trans (hu : IsProper u) (hv : IsProper v) (hw : IsProper w)
    (h : u.equal v = true) (h' : v.equal w = true) : u.equal w = true := by
  obtain ⟨halike, hsame⟩ := (equal_iff_alike hu hv).mp h
  obtain ⟨halike', hsame'⟩ := (equal_iff_alike hv hw).mp h'
  refine (equal_iff_alike hu hw).mpr ⟨halike.trans (fun _ _ _ => Eq.trans) halike', ?_⟩
  rw [← halike.isNumber_eq] at hsame'
  rcases hsame with hnumber | hsame
  · exact .inl hnumber
  · exact hsame'.imp_right (hsame.trans fun _ _ _ => Eq.trans)

/-! ## Equal values in larger ones -/

theorem equal_array (xs : List Value) (v : Value) :
    (Value.array xs).equal v = (Value.array xs).same v := rfl

theorem equal_object (m : Mapping) (v : Value) :
    (Value.object m).equal v = (Value.object m).same v := rfl

theorem equal_array_iff : (Value.array xs).equal (.array ys) = true ↔
    List.Forall₂ (fun v w => v.equal w = true ∧ ¬ Clash v w) xs ys := by
  rw [equal_array, same, sameItems_iff]
  simp only [same_iff_equal]

theorem equal_object_iff (hm : (Entries.keys m).Nodup) (hn : (Entries.keys n).Nodup) :
    (Value.object m).equal (.object n) = true ↔
      (∀ k, k ∈ Entries.keys m ↔ k ∈ Entries.keys n) ∧
      ∀ k v w, Entries.get? k m = some v → Entries.get? k n = some w →
        v.equal w = true ∧ ¬ Clash v w := by
  rw [equal_object, same_object_iff hm hn]
  simp only [same_iff_equal]

theorem sameItems_append (h : ∀ x ∈ xs, IsProper x) (vs ws : List Value) :
    sameItems (xs ++ vs) (xs ++ ws) = sameItems vs ws := by
  induction xs with
  | nil => rfl
  | cons x xs ih =>
    obtain ⟨hx, hxs⟩ := List.forall_mem_cons.mp h
    rw [List.cons_append, List.cons_append, sameItems, same_refl hx, Bool.true_and, ih hxs]

/-- Among the same items, values are the same list if and only if they are the same. -/
theorem same_array_around (hxs : ∀ x ∈ xs, IsProper x) (hys : ∀ y ∈ ys, IsProper y) :
    (Value.array (xs ++ v :: ys)).same (.array (xs ++ w :: ys)) = v.same w := by
  have hrest : sameItems ys ys = true :=
    sameItems_iff.mpr (List.forall₂_same.mpr fun y hy => same_refl (hys y hy))
  rw [same, sameItems_append hxs, sameItems, hrest, Bool.and_true]

theorem nodup_keys_insert (hm : (Entries.keys m).Nodup) (k : String) (v : Value) :
    (Entries.keys (Entries.insert k v m)).Nodup := by
  rw [Entries.keys_insert]
  exact Entries.nodup_addKey hm

/-- Under one key of the same mapping, values are the same mapping if and only if they are the
same. -/
theorem same_object_insert (hm : IsProper (.object m)) (k : String) :
    (Value.object (Entries.insert k v m)).same (.object (Entries.insert k w m)) = true ↔
      v.same w = true := by
  cases hm with
  | object hkeys hm =>
    rw [same_object_iff (nodup_keys_insert hkeys k v) (nodup_keys_insert hkeys k w)]
    simp only [Entries.keys_insert, Entries.get?_insert]
    constructor
    · rintro ⟨-, h⟩
      exact h k v w (if_pos rfl) (if_pos rfl)
    · intro h
      refine ⟨fun _ => trivial, fun j x y hx hy => ?_⟩
      by_cases hj : k = j
      · rw [if_pos hj] at hx hy
        cases hx
        cases hy
        exact h
      · rw [if_neg hj] at hx hy
        obtain rfl : x = y := Option.some.inj (hx.symm.trans hy)
        exact same_refl (hm _ (Entries.mem_of_get? hx))

theorem equal_array_around (hxs : ∀ x ∈ xs, IsProper x) (hys : ∀ y ∈ ys, IsProper y)
    (h : v.equal w = true) :
    (Value.array (xs ++ v :: ys)).equal (.array (xs ++ w :: ys)) = true ↔ ¬ Clash v w := by
  rw [equal_array, same_array_around hxs hys, same_iff_equal]
  exact and_iff_right h

theorem equal_object_insert (hm : IsProper (.object m)) (k : String) (h : v.equal w = true) :
    (Value.object (Entries.insert k v m)).equal (.object (Entries.insert k w m)) = true ↔
      ¬ Clash v w := by
  rw [equal_object, same_object_insert hm, same_iff_equal]
  exact and_iff_right h

/-- **What equality is.**  Values are equal if and only if they have equal numbers at all places
and, unless they are numbers themselves, the same numbers.  It is an equivalence.  Lists are equal
item by item and mappings key by key, as long as no equal items clash, and equal values in the same
place of a list or under the same key of a mapping keep it equal unless they clash. -/
theorem equal_nested (hu : IsProper u) (hv : IsProper v) :
    Comparator.equal.apply u v = .ok (u.equal v) ∧
    (u.equal v = true ↔
      Alike Number.Equal u v ∧ (u.isNumber = true ∨ Alike Number.Same u v)) ∧
    (u.equal u = true ∧ (u.equal v = true → v.equal u = true) ∧
      ∀ w, IsProper w → u.equal v = true → v.equal w = true → u.equal w = true) ∧
    (∀ xs ys, u = .array xs → v = .array ys →
      (u.equal v = true ↔ List.Forall₂ (fun x y => x.equal y = true ∧ ¬ Clash x y) xs ys)) ∧
    (∀ m n, u = .object m → v = .object n →
      (u.equal v = true ↔ (∀ k, k ∈ Entries.keys m ↔ k ∈ Entries.keys n) ∧
        ∀ k x y, Entries.get? k m = some x → Entries.get? k n = some y →
          x.equal y = true ∧ ¬ Clash x y)) ∧
    (u.equal v = true → ∀ xs ys, IsProper (.array (xs ++ ys)) →
      ((Value.array (xs ++ u :: ys)).equal (.array (xs ++ v :: ys)) = true ↔ ¬ Clash u v)) ∧
    (u.equal v = true → ∀ k m, IsProper (.object m) →
      ((Value.object (Entries.insert k u m)).equal (.object (Entries.insert k v m)) = true ↔
        ¬ Clash u v)) := by
  refine ⟨rfl, equal_iff_alike hu hv,
    ⟨equal_refl hu, equal_symm hu hv, fun w hw => equal_trans hu hv hw⟩, ?_, ?_, ?_, ?_⟩
  · rintro xs ys rfl rfl
    exact equal_array_iff
  · rintro m n rfl rfl
    cases hu with
    | object hm _ =>
      cases hv with
      | object hn _ => exact equal_object_iff hm hn
  · intro h xs ys hproper
    cases hproper with
    | array hitems =>
      obtain ⟨hxs, hys⟩ := List.forall_mem_append.mp hitems
      exact equal_array_around hxs hys h
  · exact fun h k m hm => equal_object_insert hm k h

/-- A mapping in another order is equal, and so are the lists around it. -/
theorem equal_nested_reordered :
    let u : Value := .object [("id", .int 1), ("tags", .array [.string "a", .null])]
    let v : Value := .object [("tags", .array [.string "a", .null]), ("id", .int 1)]
    IsProper u ∧ IsProper v ∧ u.equal v = true ∧ v.equal u = true ∧ Alike Number.Equal u v ∧
      (Value.array [.null, u]).equal (.array [.null, v]) = true := by
  intro u v
  have htags : IsProper (.array [.string "a", .null]) :=
    .array (List.forall_mem_cons.mpr ⟨.string "a", List.forall_mem_singleton.mpr .null⟩)
  have hid : IsProper (.int 1) := .number _
  have hu : IsProper u := .object (by decide)
    (List.forall_mem_cons.mpr ⟨hid, List.forall_mem_singleton.mpr htags⟩)
  have hv : IsProper v := .object (by decide)
    (List.forall_mem_cons.mpr ⟨htags, List.forall_mem_singleton.mpr hid⟩)
  have hequal : u.equal v = true := by decide +kernel
  have hclash : ¬ Clash u v := fun ⟨_, _, hnumber, _⟩ => nomatch hnumber
  obtain ⟨-, hdeep, ⟨-, hsymm, -⟩, -, -, hlist, -⟩ := equal_nested hu hv
  have hnull : IsProper (.array ([.null] ++ [])) :=
    .array (List.forall_mem_singleton.mpr .null)
  exact ⟨hu, hv, hequal, hsymm hequal, (hdeep.mp hequal).1,
    (hlist hequal [.null] [] hnull).mpr hclash⟩

/-- One as an integer and as a float are equal, and not in a list nor under a key. -/
theorem one_unequal_in_list :
    let x : Value := .int 1
    let y : Value := .float ⟨false, Binary64.one⟩
    x.equal y = true ∧ ¬ (Value.array [x]).equal (.array [y]) = true ∧
      ¬ (Value.object [("n", x)]).equal (.object [("n", y)]) = true ∧
      ¬ ∀ xs ys, (Value.array xs).equal (.array ys) = true ↔
        List.Forall₂ (fun v w => v.equal w = true) xs ys := by
  intro x y
  have hequal : x.equal y = true := by decide +kernel
  have hlist : ¬ (Value.array [x]).equal (.array [y]) = true := by decide +kernel
  refine ⟨hequal, hlist, by decide +kernel, fun h => hlist ((h [x] [y]).mpr ?_)⟩
  exact .cons hequal .nil

end Value

end HttpSuite
