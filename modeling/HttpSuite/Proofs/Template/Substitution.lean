import HttpSuite.Proofs.Actions
import HttpSuite.Proofs.Template.Grammar

/-!
# Resolution is substitution

`Substituted value v w` says, by the grammar of references alone, that `w` is `v` with its
references replaced by `value`.  A text that is one reference between blanks becomes the value
itself.  Any other text is cut at its references, which become the texts of their values, and its
other characters stay where they are.  Arrays and mappings keep their shape, and mappings their
keys.  Nothing is said of the texts that are put in, so they are not read again.

## The argument

Where every name has a value, looking names up neither fails nor changes anything, so resolving a
value comes to `filled`, which is resolution without a state and without errors
(`resolve_eq_ok_filled` and `PassM.run_resolve`).  The relation and `filled` are then compared along
the value (`substituted_iff`).  The only case with content is a text, where the pieces that are read
are those of the one cut there is.

The main statement is `Context.resolve_substitutes`.
-/

namespace HttpSuite

namespace Template

variable (value : String → Value)

/-- What a segment becomes: a reference becomes the text of its value. -/
def Segment.filled : Segment → List Char
  | kept c => [c]
  | reference name _ => (value name).render.toList

/-- A value and what it is with its references replaced. -/
inductive Substituted : Value → Value → Prop where
  | lone {s name : String} (h : IsReference name (Text.trim s.toList)) :
      Substituted (.string s) (value name)
  | text {s : String} {segments : List Segment}
      (hlone : ∀ name, ¬ IsReference name (Text.trim s.toList)) (h : IsCut s.toList segments) :
      Substituted (.string s) (.string (String.ofList (segments.flatMap (Segment.filled value))))
  | array {items items' : List Value} (h : List.Forall₂ Substituted items items') :
      Substituted (.array items) (.array items')
  | object {fields fields' : List (String × Value)}
      (hkeys : Entries.keys fields' = Entries.keys fields)
      (h : List.Forall₂ Substituted (fields.map Prod.snd) (fields'.map Prod.snd)) :
      Substituted (.object fields) (.object fields')
  | null : Substituted .null .null
  | bool (b : Bool) : Substituted (.bool b) (.bool b)
  | number (n : Number) : Substituted (.number n) (.number n)

/-- A value resolved against names that all have a value. -/
def filled (v : Value) : Value := Id.run (resolve (m := Id) value v)

def filledItems (items : List Value) : List Value := Id.run (resolveItems (m := Id) value items)

def filledFields (fields : List (String × Value)) : List (String × Value) :=
  Id.run (resolveFields (m := Id) value fields)

variable {value}

/-! ## Texts -/

theorem splice_pieces (segments : List Segment) :
    Id.run (splice (m := Id) value (segments.map Segment.piece)) =
      segments.flatMap (Segment.filled value) := by
  induction segments with
  | nil => rfl
  | cons segment rest ih =>
    rw [List.flatMap_cons, ← ih]
    cases segment with
    | kept c => rfl
    | reference name r => rfl

theorem filled_lone {s name : String} (h : IsReference name (Text.trim s.toList)) :
    filled value (.string s) = value name := by
  have hlone := lone?_eq_some_iff.mpr h
  change Id.run (resolveText (m := Id) value s) = value name
  rw [resolveText, hlone]
  rfl

theorem filled_text {s : String} {segments : List Segment}
    (hlone : ∀ name, ¬ IsReference name (Text.trim s.toList)) (h : IsCut s.toList segments) :
    filled value (.string s) =
      .string (String.ofList (segments.flatMap (Segment.filled value))) := by
  have hnone : lone? s = none := by
    rw [Option.eq_none_iff_forall_ne_some]
    intro name hname
    exact hlone name (lone?_eq_some_iff.mp hname)
  obtain ⟨segments', hcut, hpieces⟩ := exists_isCut_pieces s.toList
  have hsegments := hcut.unique h
  subst hsegments
  change Id.run (resolveText (m := Id) value s) = _
  rw [resolveText, hnone, ← hpieces, ← splice_pieces]
  rfl

theorem substituted_string_iff {s : String} {w : Value} :
    Substituted value (.string s) w ↔ w = filled value (.string s) := by
  constructor
  · intro h
    cases h with
    | lone h => exact (filled_lone h).symm
    | text hlone h => exact (filled_text hlone h).symm
  · rintro rfl
    by_cases hlone : ∃ name, IsReference name (Text.trim s.toList)
    · obtain ⟨name, hname⟩ := hlone
      rw [filled_lone hname]
      exact .lone hname
    · have hnot : ∀ name, ¬ IsReference name (Text.trim s.toList) :=
        fun name hname => hlone ⟨name, hname⟩
      obtain ⟨segments, hcut, -⟩ := exists_isCut_pieces s.toList
      rw [filled_text hnot hcut]
      exact .text hnot hcut

/-! ## Values -/

mutual

/-- **A value is substituted in one way**, and that is how it is resolved. -/
theorem substituted_iff : ∀ v w : Value, Substituted value v w ↔ w = filled value v
  | .string _, _ => substituted_string_iff
  | .array items, w => by
    constructor
    · intro h
      cases h with
      | array h => rw [(substitutedItems_iff items _).mp h]; rfl
    · rintro rfl
      exact .array ((substitutedItems_iff items _).mpr rfl)
  | .object fields, w => by
    constructor
    · intro h
      cases h with
      | object hkeys h => rw [(substitutedFields_iff fields _).mp ⟨hkeys, h⟩]; rfl
    · rintro rfl
      obtain ⟨hkeys, h⟩ := (substitutedFields_iff fields _).mpr rfl
      exact .object hkeys h
  | .null, _ => ⟨fun h => by cases h; rfl, by rintro rfl; exact .null⟩
  | .bool b, _ => ⟨fun h => by cases h; rfl, by rintro rfl; exact .bool b⟩
  | .number n, _ => ⟨fun h => by cases h; rfl, by rintro rfl; exact .number n⟩

theorem substitutedItems_iff : ∀ items items' : List Value,
    List.Forall₂ (Substituted value) items items' ↔ items' = filledItems value items
  | [], _ => ⟨fun h => by cases h; rfl, by rintro rfl; exact .nil⟩
  | v :: rest, items' => by
    constructor
    · intro h
      cases h with
      | cons hv hrest =>
        rw [(substituted_iff v _).mp hv, (substitutedItems_iff rest _).mp hrest]
        rfl
    · rintro rfl
      have hv := (substituted_iff v _).mpr rfl
      have hrest := (substitutedItems_iff rest _).mpr rfl
      exact .cons hv hrest

theorem substitutedFields_iff : ∀ fields fields' : List (String × Value),
    (Entries.keys fields' = Entries.keys fields ∧
      List.Forall₂ (Substituted value) (fields.map Prod.snd) (fields'.map Prod.snd)) ↔
        fields' = filledFields value fields
  | [], fields' => by
    constructor
    · rintro ⟨hkeys, -⟩
      exact List.map_eq_nil_iff.mp hkeys
    · rintro rfl
      exact ⟨rfl, .nil⟩
  | (key, v) :: rest, fields' => by
    constructor
    · rintro ⟨hall, h⟩
      cases fields' with
      | nil => cases hall
      | cons field' rest' =>
        obtain ⟨key', w⟩ := field'
        obtain ⟨rfl, hkeys⟩ : key' = key ∧ Entries.keys rest' = Entries.keys rest :=
          List.cons.inj hall
        cases h with
        | cons hv h =>
          have hrest := (substitutedFields_iff rest rest').mp ⟨hkeys, h⟩
          rw [(substituted_iff v w).mp hv, hrest]
          rfl
    · rintro rfl
      have hv := (substituted_iff v _).mpr rfl
      obtain ⟨hkeys, hrest⟩ := (substitutedFields_iff rest _).mpr rfl
      exact ⟨congrArg (key :: ·) hkeys, .cons hv hrest⟩

end

/-! ## Values without references -/

theorem referencesIn_eq_map {cs : List Char} {segments : List Segment} (h : IsCut cs segments) :
    referencesIn cs = segments.filterMap (·.piece.name?) := by
  obtain ⟨segments', hcut, hpieces⟩ := exists_isCut_pieces cs
  have hsegments := hcut.unique h
  subst hsegments
  rw [referencesIn, ← hpieces, List.filterMap_map]
  rfl

/-- A text without references stays as it is. -/
theorem filled_of_referencesIn {s : String} (h : referencesIn s.toList = []) :
    filled value (.string s) = .string s := by
  obtain ⟨segments, hcut, -⟩ := exists_isCut_pieces s.toList
  have hnot : ∀ name, ¬ IsReference name (Text.trim s.toList) := by
    intro name hname
    rw [references_of_lone (lone?_eq_some_iff.mpr hname)] at h
    cases h
  have hkept : ∀ segment ∈ segments, segment.filled value = segment.text := by
    intro segment hmem
    cases segment with
    | kept c => rfl
    | reference name r =>
      rw [referencesIn_eq_map hcut, List.filterMap_eq_nil_iff] at h
      have hnone := h _ hmem
      cases hnone
  rw [filled_text hnot hcut, List.flatMap_congr hkept, hcut.text, String.ofList_toList]

mutual

/-- **A value without references stays as it is.** -/
theorem filled_of_references : ∀ v : Value, references v = [] → filled value v = v
  | .string _, h => filled_of_referencesIn h
  | .array items, h => congrArg Value.array (filledItems_of_references items h)
  | .object fields, h => congrArg Value.object (filledFields_of_references fields h)
  | .null, _ => rfl
  | .bool _, _ => rfl
  | .number _, _ => rfl

theorem filledItems_of_references :
    ∀ items : List Value, referencesOfItems items = [] → filledItems value items = items
  | [], _ => rfl
  | v :: rest, h => by
    obtain ⟨hv, hrest⟩ := List.append_eq_nil_iff.mp h
    have hhead := filled_of_references v hv
    have htail := filledItems_of_references rest hrest
    change filled value v :: filledItems value rest = v :: rest
    rw [hhead, htail]

theorem filledFields_of_references :
    ∀ fields : List (String × Value), referencesOfFields fields = [] →
      filledFields value fields = fields
  | [], _ => rfl
  | (key, v) :: rest, h => by
    obtain ⟨hv, hrest⟩ := List.append_eq_nil_iff.mp h
    have hhead := filled_of_references v hv
    have htail := filledFields_of_references rest hrest
    change (key, filled value v) :: filledFields value rest = (key, v) :: rest
    rw [hhead, htail]

end

/-! ## Lookups that succeed -/

variable {ε : Type}

theorem paired_filled (lookup : String → Except ε Value) (value : String → Value) :
    Paired (n := Id) lookup value (fun names x y =>
      (∀ name ∈ names, lookup name = .ok (value name)) → x = .ok y) where
  lookup := fun name h => h name (List.mem_singleton_self name)
  pure := fun _ _ => rfl
  bind := fun hxy hfg h => by
    rw [hxy fun name hname => h name (List.mem_append_left _ hname)]
    exact hfg _ fun name hname => h name (List.mem_append_right _ hname)

/-- Where every reference has a value, resolving succeeds. -/
theorem resolve_eq_ok_filled {lookup : String → Except ε Value} {v : Value}
    (h : ∀ name ∈ references v, lookup name = .ok (value name)) :
    resolve lookup v = .ok (filled value v) :=
  resolve_paired (paired_filled lookup value) v h

theorem resolveFields_eq_ok_filled {lookup : String → Except ε Value}
    {fields : List (String × Value)}
    (h : ∀ name ∈ referencesOfFields fields, lookup name = .ok (value name)) :
    resolveFields lookup fields = .ok (filledFields value fields) :=
  resolveFields_paired (paired_filled lookup value) fields h

end Template

/-- In a pass where every reference is to a variable, nothing is pulled. -/
theorem PassM.run_resolve {c : Context} {value : String → Value} {v : Value}
    (h : ∀ name ∈ Template.references v, c.get? name = some (value name)) (p : Pass)
    (hp : p.context = c) :
    (PassM.resolve v).run.run p = (.ok (Template.filled value v), p) := by
  have hpaired : Template.Paired (n := Id) PassM.lookup value (fun names x y =>
      (∀ name ∈ names, c.get? name = some (value name)) → x.run.run p = (.ok y, p)) :=
    { lookup := fun name h => by
        have hname := h name (List.mem_singleton_self name)
        change PassM.lookup name p = _
        rw [PassM.lookup, hp, hname]
      pure := fun _ _ => rfl
      bind := fun hxy hfg h => by
        rw [ExceptT.run_run_bind, hxy fun name hname => h name (List.mem_append_left _ hname)]
        exact hfg _ fun name hname => h name (List.mem_append_right _ hname) }
  exact Template.resolve_paired hpaired v h

namespace Context

/-- The value bound to a name. -/
def value (c : Context) (name : String) : Value := .ofOption (c.get? name)

theorem get?_eq_some_value {c : Context} {name : String} (h : (c.get? name).isSome = true) :
    c.get? name = some (c.value name) := by
  obtain ⟨v, hv⟩ := Option.isSome_iff_exists.mp h
  rw [value, hv]
  rfl

/-- Where all names in a value are bound, it resolves against the variables. -/
theorem resolveBound_eq_ok_filled {c : Context} {v : Value}
    (h : ∀ name ∈ Template.names v, (c.get? name).isSome = true) :
    c.resolveBound v = .ok (Template.filled c.value v) := by
  refine Template.resolve_eq_ok_filled fun name hname => ?_
  have hbound := get?_eq_some_value (h name (Template.mem_names.mpr hname))
  rw [lookupBound, hbound]

/-- A value without references resolves to itself. -/
theorem resolveBound_of_names (c : Context) {v : Value} (h : Template.names v = []) :
    c.resolveBound v = .ok v := by
  have hbound : ∀ name ∈ Template.names v, (c.get? name).isSome = true := by
    rw [h]
    exact fun _ hname => absurd hname List.not_mem_nil
  rw [resolveBound_eq_ok_filled hbound,
    Template.filled_of_references v (Template.references_of_names h)]

/-- **Resolution is substitution.**  Where all names in a value are bound, it resolves, against the
variables alone and in a pass, to the one value that it is with its references replaced, and the
context stays as it is.  Every text has one cut at its references, so that the substitution is
determined, and a value without references stays as it is. -/
theorem resolve_substitutes (c : Context) (v : Value)
    (h : ∀ name ∈ Template.names v, (c.get? name).isSome = true) :
    ∃ w, c.resolveBound v = .ok w ∧ c.resolve v = (.ok w, c) ∧
      (∀ w', Template.Substituted c.value v w' ↔ w' = w) ∧
      (Template.names v = [] → w = v) ∧
      ∀ cs, ∃! segments, Template.IsCut cs segments := by
  have hbound : ∀ name ∈ Template.references v, c.get? name = some (c.value name) :=
    fun name hname => get?_eq_some_value (h name (Template.mem_names.mpr hname))
  have hlookup : ∀ name ∈ Template.references v, c.lookupBound name = .ok (c.value name) := by
    intro name hname
    rw [lookupBound, hbound name hname]
  have hpass := PassM.run_resolve hbound ⟨c, []⟩ rfl
  refine ⟨Template.filled c.value v, Template.resolve_eq_ok_filled hlookup, ?_,
    Template.substituted_iff v, fun hnames => ?_, Template.existsUnique_isCut⟩
  · rw [resolve, pass, hpass]
  · refine Template.filled_of_references v (List.eq_nil_iff_forall_not_mem.mpr ?_)
    intro name hname
    have hmem := Template.mem_names.mpr hname
    rw [hnames] at hmem
    cases hmem

/-- A number, and a text that looks like a reference to it. -/
def nested : Context where
  environment := []
  bindings := [("n", .int 5), ("t", .string "{{n}}")]
  generators := []

/-- Texts with references between blanks, among stray braces and one after another, under a key
that looks like a reference. -/
def nestedValue : Value :=
  .object [("{{n}}", .array ([" {{ n }} ", "\x7b{{n}}\x7d", "\x7b\x7b {{n}} \x7d",
    "{{t}}{{n}}\x7b\x7b", "é{{n}} \x7b\x7bn", "\x7b\x7b1n\x7d\x7d"].map .string))]

/-- What comes of `nestedValue`, as text.  The key stays, the first text becomes the number, and
what is put into a text is not read again. -/
def nestedText : String :=
  "\x7b\"{{n}}\":[5,\"\x7b5\x7d\",\"\x7b\x7b 5 \x7d\",\"{{n}}5\x7b\x7b\"," ++
    "\"é5 \x7b\x7bn\",\"\x7b\x7b1n\x7d\x7d\"]\x7d"

/-- The value that `nestedText` is the text of is the one substitution in `nestedValue`. -/
theorem resolve_substitutes_nestedValue :
    ∃ w, nested.resolveBound nestedValue = .ok w ∧ nested.resolve nestedValue = (.ok w, nested) ∧
      (∀ w', Template.Substituted nested.value nestedValue w' ↔ w' = w) ∧
      w.toText = nestedText := by
  have hnames : Template.names nestedValue = ["n", "t"] := by decide +kernel
  have hbound : ∀ name ∈ Template.names nestedValue, (nested.get? name).isSome = true := by
    rw [hnames]
    decide
  have htext : (nested.resolveBound nestedValue).toOption.map Value.toText = some nestedText := by
    decide +kernel
  obtain ⟨w, hw, hpass, hunique, -⟩ := resolve_substitutes nested nestedValue hbound
  rw [hw] at htext
  exact ⟨w, hw, hpass, hunique, Option.some.inj htext⟩

end Context

end HttpSuite
