import HttpSuite.Extractor
import HttpSuite.Proofs.Entries
import HttpSuite.Proofs.Text.Decimal
import Mathlib

/-!
# Paths of keys and positions

A path leads from a value to one inside it, by keys of mappings and positions of lists
(`Value.Leads`), or it leaves the value at some part (`Value.Leaves`).  Whether a part is a key or a
position depends on what it comes to: the same digits are a key of a mapping and a position of a
list.

## Walking

A walk is made of single steps, so both relations are read off one step each
(`Extractor.child?_eq_some_iff`, `Extractor.child?_eq_none_iff`), and every path leads to exactly one
value or leaves.

## Queries

A query spells a path by points between its parts, and empty parts do not count (`Extractor.Spells`).
Points can stand in no part, so splitting at the points is the only way to read a query
(`Extractor.spells_iff`), and what a query extracts is what stands at the end of the path that it
spells (`Extractor.walk_addresses`).
-/

namespace HttpSuite

namespace Value

/-- A way to write a position of a list, which is a number of 64 bits. -/
def IsPosition (s : String) (i : Nat) : Prop := i < 2 ^ 64 ∧ Text.IsNumeral s i

/-- A part of a path is a key or a position, and a value stands there. -/
inductive Child : Value → String → Value → Prop where
  | field {fields : Mapping} {key : String} {v : Value} (h : Entries.get? key fields = some v) :
      Child (.object fields) key v
  | item {items : List Value} {s : String} {i : Nat} {v : Value} (hs : IsPosition s i)
      (h : items[i]? = some v) : Child (.array items) s v

/-- A part of a path is a key that is missing, a position beyond the end of a list, no position at
all, or it is applied to something that has no parts. -/
inductive Childless : Value → String → Prop where
  | missing {fields : Mapping} {key : String} (h : key ∉ Entries.keys fields) :
      Childless (.object fields) key
  | beyond {items : List Value} {s : String} {i : Nat} (hs : IsPosition s i)
      (h : items.length ≤ i) : Childless (.array items) s
  | noPosition {items : List Value} {s : String} (h : ∀ i, ¬ IsPosition s i) :
      Childless (.array items) s
  | scalar {v : Value} {s : String} (harray : v.isArray = false) (hobject : v.isObject = false) :
      Childless v s

/-- A path leads from the first value to the second. -/
inductive Leads : Value → List String → Value → Prop where
  | nil (v : Value) : Leads v [] v
  | cons {u v w : Value} {s : String} {path : List String} (head : Child u s v)
      (tail : Leads v path w) : Leads u (s :: path) w

/-- A path leaves a value. -/
inductive Leaves : Value → List String → Prop where
  | here {v : Value} {s : String} (h : Childless v s) (path : List String) : Leaves v (s :: path)
  | there {u v : Value} {s : String} {path : List String} (head : Child u s v)
      (tail : Leaves v path) : Leaves u (s :: path)

end Value

namespace Extractor

open Value

variable {v w : Value} {s : String} {path : List String}

/-! ## Single steps -/

theorem unsigned?_iff_isPosition {i : Nat} : Text.unsigned? s = some i ↔ IsPosition s i :=
  Text.unsignedBelow?_iff_isNumeral

theorem child?_eq_some_iff : child? v s = some w ↔ Child v s w := by
  constructor
  · intro h
    cases v with
    | object fields => exact .field h
    | array items =>
      obtain ⟨i, hi, hitem⟩ := Option.bind_eq_some_iff.mp h
      exact .item (unsigned?_iff_isPosition.mp hi) hitem
    | null | bool | number | string => cases h
  · intro h
    cases h with
    | field h => exact h
    | item hs h => exact Option.bind_eq_some_iff.mpr ⟨_, unsigned?_iff_isPosition.mpr hs, h⟩

theorem child?_eq_none_iff : child? v s = none ↔ Childless v s := by
  constructor
  · intro h
    cases v with
    | object fields => exact .missing (Entries.get?_eq_none_iff.mp h)
    | array items =>
      cases hi : Text.unsigned? s with
      | none =>
        refine .noPosition fun i hs => ?_
        rw [unsigned?_iff_isPosition.mpr hs] at hi
        cases hi
      | some i =>
        rw [child?, hi] at h
        exact .beyond (unsigned?_iff_isPosition.mp hi) (List.getElem?_eq_none_iff.mp h)
    | null | bool | number | string => exact .scalar rfl rfl
  · intro h
    cases h with
    | missing h => exact Entries.get?_eq_none h
    | beyond hs h =>
      rw [child?, unsigned?_iff_isPosition.mpr hs]
      exact List.getElem?_eq_none h
    | @noPosition items _ h =>
      cases hi : Text.unsigned? s with
      | none => rw [child?, hi, Option.bind_none]
      | some i => exact absurd (unsigned?_iff_isPosition.mp hi) (h i)
    | scalar harray hobject =>
      cases v with
      | array items => cases harray
      | object fields => cases hobject
      | null | bool | number | string => rfl

/-! ## Walks -/

/-- **A walk ends where the path leads.** -/
theorem walk?_eq_some_iff : walk? v path = some w ↔ Leads v path w := by
  induction path generalizing v with
  | nil =>
    rw [walk?, Option.some.injEq]
    constructor
    · rintro rfl
      exact .nil v
    · intro h
      cases h
      rfl
  | cons s path ih =>
    rw [walk?, Option.bind_eq_some_iff]
    constructor
    · rintro ⟨u, hchild, hrest⟩
      exact .cons (child?_eq_some_iff.mp hchild) (ih.mp hrest)
    · intro h
      cases h with
      | cons head tail => exact ⟨_, child?_eq_some_iff.mpr head, ih.mpr tail⟩

/-- **A walk fails where the path leaves.** -/
theorem walk?_eq_none_iff : walk? v path = none ↔ Leaves v path := by
  induction path generalizing v with
  | nil => exact iff_of_false nofun nofun
  | cons s path ih =>
    rw [walk?]
    constructor
    · intro h
      cases hchild : child? v s with
      | none => exact .here (child?_eq_none_iff.mp hchild) path
      | some u =>
        rw [hchild] at h
        exact .there (child?_eq_some_iff.mp hchild) (ih.mp h)
    · intro h
      cases h with
      | here h => rw [child?_eq_none_iff.mpr h, Option.bind_none]
      | there head tail =>
        rw [child?_eq_some_iff.mpr head]
        exact ih.mpr tail

/-! ## Queries -/

/-- A text that can stand between points. -/
def IsPart (s : String) : Prop := s ≠ "" ∧ '.' ∉ s.toList

instance (s : String) : Decidable (IsPart s) := inferInstanceAs (Decidable (_ ∧ _))

theorem isPart_of_isPosition {i : Nat} (h : IsPosition s i) : IsPart s := by
  refine ⟨h.2.ne_empty, fun hpoint => ?_⟩
  rcases h.2.eq_or_isDigit hpoint with h | h
  · exact absurd h (by decide)
  · exact absurd h (by decide)

/-- A query is made of parts with points between them, and the path is what is not empty of them. -/
def Spells (query : String) (path : List String) : Prop :=
  ∃ parts : List String, (∀ s ∈ parts, '.' ∉ s.toList) ∧ query = ".".intercalate parts ∧
    path = parts.filter (· ≠ "")

theorem splitPoints_eq_splitOn (cs : List Char) : splitPoints cs = cs.splitOn '.' := by
  induction cs with
  | nil => rfl
  | cons c cs ih =>
    rw [splitPoints, ih, List.splitOn_cons_eq_if_modifyHead]
    cases hsplit : cs.splitOn '.' with
    | nil => exact absurd hsplit (List.splitOn_ne_nil _ _)
    | cons part parts => by_cases hc : c = '.' <;> simp [hc]

theorem notMem_of_mem_splitPoints {cs part : List Char} (h : part ∈ splitPoints cs) :
    '.' ∉ part := by
  induction cs generalizing part with
  | nil =>
    obtain rfl := List.mem_singleton.mp h
    exact List.not_mem_nil
  | cons c cs ih =>
    rw [splitPoints] at h
    split at h
    · rename_i hnil
      rw [splitPoints_eq_splitOn] at hnil
      exact absurd hnil (List.splitOn_ne_nil _ _)
    · rename_i first rest hsplit
      rw [hsplit] at ih
      split at h
      · rcases List.mem_cons.mp h with rfl | h
        · exact List.not_mem_nil
        · exact ih h
      · rename_i hc
        rcases List.mem_cons.mp h with rfl | h
        · exact List.not_mem_cons_of_ne_of_not_mem (Ne.symm hc) (ih List.mem_cons_self)
        · exact ih (List.mem_cons_of_mem _ h)

/-- Parts without points are found again. -/
theorem segments_intercalate {parts : List String} (h : ∀ s ∈ parts, '.' ∉ s.toList) :
    segments (".".intercalate parts) = parts.filter (· ≠ "") := by
  cases parts with
  | nil => rfl
  | cons first rest =>
    have hpoints : ∀ l ∈ (first :: rest).map String.toList, '.' ∉ l := by
      intro l hl
      obtain ⟨s, hs, rfl⟩ := List.mem_map.mp hl
      exact h s hs
    have hsplit := List.splitOn_intercalate '.' hpoints (by simp)
    have hempty (s : String) : (!s.toList.isEmpty) = decide (s ≠ "") := by
      rw [decide_not, Bool.not_inj_iff, Bool.eq_iff_iff, List.isEmpty_iff, decide_eq_true_iff,
        String.toList_eq_nil_iff]
    rw [segments, splitPoints_eq_splitOn, String.toList_intercalate]
    change List.map _ (List.filter _ (List.splitOn '.' (['.'].intercalate _))) = _
    rw [hsplit, List.filter_map, List.map_map]
    simp only [Function.comp_def, String.ofList_toList, List.map_id', hempty]

/-- **A query spells one path only**, the one that is walked. -/
theorem spells_iff {query : String} : Spells query path ↔ path = segments query := by
  constructor
  · rintro ⟨parts, hpoints, rfl, rfl⟩
    exact (segments_intercalate hpoints).symm
  · rintro rfl
    have hpoints : ∀ s ∈ (splitPoints query.toList).map String.ofList, '.' ∉ s.toList := by
      intro s hs
      obtain ⟨part, hpart, rfl⟩ := List.mem_map.mp hs
      rw [String.toList_ofList]
      exact notMem_of_mem_splitPoints hpart
    have hquery : query = ".".intercalate ((splitPoints query.toList).map String.ofList) := by
      refine String.toList_inj.mp ?_
      rw [String.toList_intercalate, List.map_map, splitPoints_eq_splitOn]
      simp only [Function.comp_def, String.toList_ofList, List.map_id']
      exact (List.intercalate_splitOn '.').symm
    refine ⟨_, hpoints, hquery, ?_⟩
    rw [← segments_intercalate hpoints, ← hquery]

/-- Between the parts of a path a point separates. -/
theorem segments_append_point (q r : String) :
    segments (q ++ "." ++ r) = segments q ++ segments r := by
  have hsplit : (q ++ "." ++ r).toList.splitOn '.' = q.toList.splitOn '.' ++ r.toList.splitOn '.' := by
    rw [String.toList_append, String.toList_append, List.append_assoc]
    exact List.splitOn_append_cons_self _ _
  simp only [segments, splitPoints_eq_splitOn, hsplit, List.filter_append, List.map_append]

theorem segments_point_append (q : String) : segments ("." ++ q) = segments q := by
  have hpoint := segments_append_point "" q
  rw [String.empty_append] at hpoint
  rw [hpoint]
  rfl

theorem segments_append_end (q : String) : segments (q ++ ".") = segments q := by
  have hpoint := segments_append_point q ""
  rw [String.append_empty] at hpoint
  rw [hpoint]
  exact List.append_nil _

theorem segments_append_points (q r : String) :
    segments (q ++ ".." ++ r) = segments (q ++ "." ++ r) := by
  have htwo : q ++ ".." ++ r = q ++ "." ++ ("." ++ r) := by
    simp only [String.append_assoc]
    rfl
  rw [htwo, segments_append_point, segments_point_append, segments_append_point]

/-! ## Extraction -/

theorem extract_keyPath {query q : String} {body : List UInt8} {context : Context}
    (hquery : render context query = .ok q) (hbody : Value.ofJsonBytes? body = some v)
    (headers : Headers) : (keyPath query).extract body headers context =
      .ok ((walk? v (segments q)).getD .null) := by
  simp only [extract, hquery, bodyValue, hbody, bind, Except.bind]
  rfl

/-- There is nothing at the end of a walk if the path leaves, or if null stands there. -/
theorem walk?_getD_eq_null_iff :
    (walk? v path).getD .null = .null ↔ Leaves v path ∨ Leads v path .null := by
  rw [← walk?_eq_none_iff, ← walk?_eq_some_iff]
  cases walk? v path with
  | none => simp
  | some w => simp

/-- **Every place of a document has a query.**  A path of keys that are not empty and hold no points,
and of positions in decimal digits, is walked to the value that it leads to when its parts are
joined by points.  Points at the beginning, at the end or twice in a row change nothing.  A rendered
query spells one path, and what it extracts from a document is the value that the path leads to.  It
is null exactly if the path leaves the document or null stands there. -/
theorem walk_addresses (v : Value) :
    (∀ path w, (∀ s ∈ path, IsPart s ∨ ∃ i, IsPosition s i) → Leads v path w →
      walk? v (segments (".".intercalate path)) = some w) ∧
    (∀ q r, walk? v (segments ("." ++ q)) = walk? v (segments q) ∧
      walk? v (segments (q ++ ".")) = walk? v (segments q) ∧
      walk? v (segments (q ++ ".." ++ r)) = walk? v (segments (q ++ "." ++ r))) ∧
    ∀ query body headers context q, render context query = .ok q →
      Value.ofJsonBytes? body = some v →
      ∃ path w, (∀ p, Spells q p ↔ p = path) ∧
        (keyPath query).extract body headers context = .ok w ∧
        (∀ u, Leads v path u → w = u) ∧ (w = .null ↔ Leaves v path ∨ Leads v path .null) := by
  refine ⟨fun path w hpath hleads => ?_, fun q r => ⟨?_, ?_, ?_⟩,
    fun query body headers context q hquery hbody => ?_⟩
  · have hparts : ∀ s ∈ path, IsPart s := fun s hs =>
      (hpath s hs).elim id fun ⟨_, hi⟩ => isPart_of_isPosition hi
    have hall : path.filter (· ≠ "") = path :=
      List.filter_eq_self.mpr fun s hs => decide_eq_true (hparts s hs).1
    rw [segments_intercalate fun s hs => (hparts s hs).2, hall]
    exact walk?_eq_some_iff.mpr hleads
  · rw [segments_point_append]
  · rw [segments_append_end]
  · rw [segments_append_points]
  · refine ⟨segments q, _, fun p => spells_iff, extract_keyPath hquery hbody headers,
      fun u hu => ?_, walk?_getD_eq_null_iff⟩
    rw [walk?_eq_some_iff.mpr hu, Option.getD_some]

/-- A list, and in it a mapping that has digits for a key. -/
def numbered : Value := .object [("items", .array [.null, .object [("1", .bool true)]])]

/-- The same digits as a position and as a key; a query with a reference and a needless point; and
one that leads beyond the end of a list. -/
theorem walk_addresses_numbered :
    let body := Utf8.encode "[true]"
    let context := (Context.empty []).bind "n" (.int 0)
    walk? numbered (segments "items.1.1") = some (.bool true) ∧
      (keyPath ".{{n}}").extract body [] context = .ok (.bool true) ∧
      (keyPath "1").extract body [] context = .ok .null := by
  intro body context
  have hone : IsPosition "1" 1 := ⟨by decide, Text.isNumeral_toString 1⟩
  have hzero : IsPosition "0" 0 := ⟨by decide, Text.isNumeral_toString 0⟩
  have hbody : Value.ofJsonBytes? body = some (.array [.bool true]) := by
    rw [Value.ofJsonBytes?, show Utf8.text? body = some "[true]" by decide +kernel]
    rfl
  obtain ⟨haddresses, -, -⟩ := walk_addresses numbered
  obtain ⟨-, -, hextracts⟩ := walk_addresses (.array [.bool true])
  refine ⟨haddresses ["items", "1", "1"] _ ?_ (.cons (.field rfl) (.cons (.item hone rfl)
    (.cons (.field rfl) (.nil _)))), ?_, ?_⟩
  · have hparts : ∀ s ∈ ["items", "1", "1"], IsPart s := by decide
    exact fun s hs => .inl (hparts s hs)
  · obtain ⟨path, w, hspells, hextract, hvalue, -⟩ :=
      hextracts ".{{n}}" body [] context ".0" (by cbv) hbody
    obtain rfl := (hspells ["0"]).mp ⟨["", "0"], by decide, by decide +kernel, by decide⟩
    rw [hextract, hvalue _ (.cons (.item hzero rfl) (.nil _))]
  · obtain ⟨path, w, hspells, hextract, -, hnull⟩ :=
      hextracts "1" body [] context "1" (by cbv) hbody
    obtain rfl := (hspells ["1"]).mp ⟨["1"], by decide, by decide +kernel, by decide⟩
    rw [hextract, hnull.mpr (.inl (.here (.beyond hone (by decide)) []))]

end Extractor

end HttpSuite
