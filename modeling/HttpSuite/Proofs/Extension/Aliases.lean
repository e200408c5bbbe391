import HttpSuite.Proofs.Entries
import HttpSuite.Proofs.Extension.Registrations
import HttpSuite.Proofs.Files.Tree
import Mathlib.Data.List.Induction

/-!
# What aliases stand for

A registration takes the kind that its base stands for at that moment and puts one more preset over
it.  So behind a name there is a chain of registrations (`StandsFor`): the last one under the name,
then the last one under its base among those before it, and so on down to a name that the loading
did not register.  The chain goes back in time, whatever names are used again, and what the registry
has under a name is always the end of the chain under the presets of its links
(`StandsFor.alias?`, `exists_standsFor`).

What is under a name therefore changes only with a registration of that name.  An extractor, a
generator or an operation is made from that alone.  A validator is also made from the extractors
that its configuration declares, and these are looked up in the registry in which the validator is
read.
-/

namespace HttpSuite

namespace Section

/-- What a section is for. -/
abbrev Product : Section → Type
  | validators => Validator
  | extractors => Extractor
  | generators => Generator
  | operations => Operation

/-- What can be written under a name of a section: an operation takes a mapping. -/
def Admits : Section → Value → Prop
  | operations, config => ∃ fields, config = .object fields
  | _, _ => True

end Section

namespace Registry

/-- What a configuration under a name makes.  The bindings are for generators. -/
def declare (q : Registry) :
    (s : Section) → String → Mapping → Value → Except CompileError s.Product
  | .validators, key, _, config => q.declareValidator key config
  | .extractors, key, _, config => q.declareExtractor key config
  | .generators, key, bindings, config => q.declareGenerator key config bindings
  | .operations, key, _, config => q.declareOperation key (config.object?.getD [])

/-- What a configuration makes by a kind under presets, in the registry where it is read. -/
def parse (q : Registry) :
    (s : Section) → Alias s.Kind → Mapping → Value → Except CompileError s.Product
  | .validators, a, _, config => q.buildValidator a.kind (a.configure config)
  | .extractors, a, _, config => Extractor.declare a.kind (a.configure config)
  | .generators, a, bindings, config => a.kind.declare (a.configure config) bindings
  | .operations, a, _, config =>
    Operation.declare a.kind ((a.configure config).object?.getD [])

end Registry

/-! ## Presets -/

namespace Alias

variable {κ : Type}

/-- A configuration over the presets of some registrations, the last registered first. -/
def overlayAll (links : List Registration) (config : Value) : Value :=
  links.foldl (fun config x => overlay x.preset config) config

/-- The kind under the presets of some more registrations, the last registered first. -/
def beneath (a : Alias κ) (links : List Registration) : Alias κ :=
  ⟨a.kind, links.map (·.preset) ++ a.presets⟩

theorem configure_beneath (a : Alias κ) (links : List Registration) (config : Value) :
    (a.beneath links).configure config = a.configure (overlayAll links config) := by
  rw [configure, beneath, List.foldl_append, List.foldl_map]
  rfl

/-- A mapping over presets is a mapping. -/
theorem configure_object (a : Alias κ) (fields : Mapping) :
    ∃ merged, a.configure (.object fields) = .object merged := by
  obtain ⟨kind, presets⟩ := a
  change ∃ merged, presets.foldl (fun config preset => overlay preset config) _ = .object merged
  induction presets generalizing fields with
  | nil => exact ⟨fields, rfl⟩
  | cons preset presets ih =>
    rw [List.foldl_cons]
    cases preset with
    | object base => exact ih (Entries.insertAll base fields)
    | _ => exact ih fields

end Alias

namespace Registry

variable {q r : Registry} {s t : Section} {key : String} {bindings : Mapping} {config : Value}

theorem parse_beneath (a : Alias s.Kind) (links : List Registration) :
    q.parse s (a.beneath links) bindings config =
      q.parse s a bindings (Alias.overlayAll links config) := by
  cases s <;> simp only [parse, Alias.configure_beneath] <;> rfl

/-- A configuration under a name is read by what the name stands for. -/
theorem declare_eq_parse {a : Alias s.Kind} (ha : q.alias? s key = some a)
    (hconfig : s.Admits config) :
    q.declare s key bindings config = q.parse s a bindings config := by
  cases s with
  | validators =>
    have ha : q.validator? key = some a := ha
    rw [declare, declareValidator, ha]
    rfl
  | extractors =>
    have ha : q.extractor? key = some a := ha
    rw [declare, declareExtractor, ha]
    rfl
  | generators =>
    have ha : q.generator? key = some a := ha
    rw [declare, declareGenerator, ha]
    rfl
  | operations =>
    have ha : q.operation? key = some a := ha
    obtain ⟨fields, rfl⟩ := hconfig
    obtain ⟨merged, hmerged⟩ := a.configure_object fields
    rw [declare, declareOperation, ha, parse]
    simp only [Value.object?, Option.getD_some, hmerged]

/-! ## One registration -/

theorem alias?_lower (r : Registry) (s : Section) (key : String) :
    r.alias? s (lower key) = r.alias? s key := by
  cases s <;>
    simp only [alias?, validator?, extractor?, generator?, operation?, lower_lower]

theorem alias?_add (r : Registry) (s : Section) (name key : String) (a : Alias s.Kind) :
    (r.add s name a).alias? s key = if name = lower key then some a else r.alias? s key := by
  cases s <;> exact Entries.get?_insert name (lower key) a _

theorem alias?_add_of_ne (r : Registry) (name key : String) (a : Alias s.Kind) (h : s ≠ t) :
    (r.add s name a).alias? t key = r.alias? t key := by
  cases s <;> cases t <;> first | exact absurd rfl h | rfl

variable {x : Registration} {xs : List Registration}

/-- A registered name stands for the kind of its base under one more preset. -/
theorem alias?_register (h : r.register x = some q) (hkey : lower key = x.name) :
    ∃ a, r.alias? x.under x.base = some a ∧ q.alias? x.under key = some (a.preset x.preset) := by
  obtain ⟨a, ha, rfl⟩ := Option.map_eq_some_iff.mp h
  exact ⟨a, ha, by rw [alias?_add, if_pos hkey.symm]⟩

/-- Other names stand for what they did. -/
theorem alias?_register_of_not_names (h : r.register x = some q) (hx : ¬ x.Names s (lower key)) :
    q.alias? s key = r.alias? s key := by
  obtain ⟨a, ha, rfl⟩ := Option.map_eq_some_iff.mp h
  by_cases hs : x.under = s
  · subst hs
    have hname : x.name ≠ lower key := fun heq => hx ⟨rfl, heq⟩
    rw [alias?_add, if_neg hname]
  · exact alias?_add_of_ne r x.name key _ hs

theorem alias?_registerAll_of_not_names (h : r.registerAll xs = some q)
    (hxs : ∀ x ∈ xs, ¬ x.Names s (lower key)) : q.alias? s key = r.alias? s key := by
  induction xs generalizing r with
  | nil =>
    cases h
    rfl
  | cons x xs ih =>
    rw [registerAll_cons] at h
    obtain ⟨p, hp, h⟩ := Option.bind_eq_some_iff.mp h
    rw [ih h fun y hy => hxs y (List.mem_cons_of_mem _ hy)]
    exact alias?_register_of_not_names hp (hxs x (List.mem_cons_self ..))

end Registry

/-! ## Chains of registrations -/

/-- What a name of a section stands for after some registrations over a registry: the registrations
that led to it, the last one first, and what their last base stood for at the beginning. -/
inductive StandsFor (r : Registry) (s : Section) :
    List Registration → String → List Registration → Alias s.Kind → Prop
  /-- A name that was not registered stands for what it did at the beginning. -/
  | base {before : List Registration} {name : String} {a : Alias s.Kind}
      (hnot : ∀ y ∈ before, ¬ y.Names s name) (ha : r.alias? s name = some a) :
      StandsFor r s before name [] a
  /-- A registered name stands for its last registration, over what the base of that stood for when
  it took place. -/
  | link {earlier later : List Registration} {x : Registration} {links : List Registration}
      {a : Alias s.Kind} (hx : x.under = s) (hnot : ∀ y ∈ later, ¬ y.Names s x.name)
      (h : StandsFor r s earlier x.base links a) :
      StandsFor r s (earlier ++ x :: later) x.name (x :: links) a

namespace StandsFor

variable {r q : Registry} {s : Section} {before later links : List Registration}
  {name key : String} {a : Alias s.Kind}

/-- The links of a chain were registered one after the other. -/
theorem sublist (h : StandsFor r s before name links a) : links.reverse.Sublist before := by
  induction h with
  | base => exact List.nil_sublist _
  | link _ _ _ ih =>
    rw [List.reverse_cons]
    exact ih.append (List.Sublist.cons_cons _ (List.nil_sublist _))

/-- A chain stays as it is until its name is registered. -/
theorem append (h : StandsFor r s before name links a) (hnot : ∀ y ∈ later, ¬ y.Names s name) :
    StandsFor r s (before ++ later) name links a := by
  cases h with
  | base hbefore ha =>
    refine .base (fun y hy => ?_) ha
    rcases List.mem_append.mp hy with hy | hy
    · exact hbefore y hy
    · exact hnot y hy
  | link hx hafter h =>
    rw [List.append_assoc, List.cons_append]
    refine .link hx (fun y hy => ?_) h
    rcases List.mem_append.mp hy with hy | hy
    · exact hafter y hy
    · exact hnot y hy

/-- The registry has the end of the chain under the presets of its links. -/
theorem alias? (h : StandsFor r s before name links a) (hq : r.registerAll before = some q)
    (hlower : ∀ x ∈ before, x.IsLower) (hkey : lower key = name) :
    q.alias? s key = some (a.beneath links) := by
  induction h generalizing q key with
  | base hnot ha =>
    subst hkey
    rw [Registry.alias?_registerAll_of_not_names hq hnot, ← Registry.alias?_lower, ha]
    rfl
  | @link earlier later x links a hx hnot _ ih =>
    subst hx
    rw [Registry.registerAll_append] at hq
    obtain ⟨q₀, hq₀, hq⟩ := Option.bind_eq_some_iff.mp hq
    rw [Registry.registerAll_cons] at hq
    obtain ⟨q₁, hq₁, hq⟩ := Option.bind_eq_some_iff.mp hq
    obtain ⟨b, hb, hnew⟩ := Registry.alias?_register hq₁ hkey
    have hxlower : x.IsLower := hlower x (List.mem_append_right _ (List.mem_cons_self ..))
    have hbase := ih hq₀ (fun y hy => hlower y (List.mem_append_left _ hy)) hxlower.2
    rw [hb] at hbase
    cases hbase
    rw [← hkey] at hnot
    rw [Registry.alias?_registerAll_of_not_names hq hnot, hnew]
    rfl

end StandsFor

/-- Whatever the registry has under a name got there by a chain. -/
theorem exists_standsFor {r q : Registry} {s : Section} {before : List Registration}
    {name : String} {b : Alias s.Kind} (hq : r.registerAll before = some q)
    (hlower : ∀ x ∈ before, x.IsLower) (hname : lower name = name)
    (hb : q.alias? s name = some b) :
    ∃ links a, StandsFor r s before name links a ∧ b = a.beneath links := by
  induction before using List.reverseRecOn generalizing q name b with
  | nil =>
    cases hq
    exact ⟨[], b, .base (fun y hy => nomatch hy) hb, rfl⟩
  | append_singleton before x ih =>
    rw [Registry.registerAll_append] at hq
    obtain ⟨q₀, hq₀, hq⟩ := Option.bind_eq_some_iff.mp hq
    obtain ⟨q₁, hx, hq⟩ := Option.bind_eq_some_iff.mp hq
    cases hq
    have hbefore : ∀ y ∈ before, y.IsLower := fun y hy => hlower y (List.mem_append_left _ hy)
    have hxlower : x.IsLower := hlower x (List.mem_append_right _ (List.mem_singleton_self x))
    by_cases hnames : x.Names s name
    · obtain ⟨rfl, rfl⟩ := hnames
      obtain ⟨a', ha', hnew⟩ := Registry.alias?_register hx hname
      rw [hb] at hnew
      cases hnew
      obtain ⟨links, a, h, rfl⟩ := ih hq₀ hbefore hxlower.2 ha'
      exact ⟨x :: links, a, .link rfl (fun y hy => nomatch hy) h, rfl⟩
    · have hsame := Registry.alias?_register_of_not_names hx (hname.symm ▸ hnames)
      rw [hsame] at hb
      obtain ⟨links, a, h, rfl⟩ := ih hq₀ hbefore hname hb
      exact ⟨links, a, h.append (List.forall_mem_singleton.mpr hnames), rfl⟩

/-! ## Validators in two registries -/

/-- The keys under which a validator looks for extractors: its own and those of what it expects. -/
def Value.extractorKeys (config : Value) : List String :=
  let keysOf (v : Value) : List String := Entries.keys (v.object?.getD [])
  keysOf config ++ keysOf (Value.ofOption (config.field? "expected"))

namespace Registry

variable {q q' : Registry} {fields : Mapping} {part : String} {config : Value}

theorem declareExtractor_congr {key : String} (h : q.extractor? key = q'.extractor? key)
    (v : Value) : q.declareExtractor (lower key) v = q'.declareExtractor (lower key) v := by
  have hlower : q.extractor? (lower key) = q'.extractor? (lower key) := by
    unfold extractor? at h ⊢
    rwa [lower_lower]
  rw [declareExtractor, declareExtractor, hlower]

/-- The extractor in a validator depends on what its keys stand for. -/
theorem embeddedExtractor_congr
    (h : ∀ key ∈ Entries.keys fields, q.extractor? key = q'.extractor? key) :
    q.embeddedExtractor fields part = q'.embeddedExtractor fields part := by
  have hembedded : q.embedded fields = q'.embedded fields := by
    refine List.filter_congr fun e he => ?_
    rw [hasExtractor, hasExtractor, h e.1 (List.mem_map_of_mem he)]
  rw [embeddedExtractor, embeddedExtractor, ← hembedded]
  cases hfound : q.embedded fields with
  | nil => rfl
  | cons e rest =>
    have hmem : e ∈ fields := (List.mem_filter.mp (hfound ▸ List.mem_cons_self ..)).1
    have hkey := h e.1 (List.mem_map_of_mem hmem)
    dsimp only
    rw [declareExtractor_congr hkey]

theorem expectedOf_congr {v : Value}
    (h : ∀ key w, v = .object [(key, w)] → q.extractor? key = q'.extractor? key) :
    q.expectedOf v = q'.expectedOf v := by
  unfold expectedOf
  split
  · rename_i key w
    have hkey := h key w rfl
    have hextractor : q.embeddedExtractor [(key, w)] ValidatorKind.comparison.name =
        q'.embeddedExtractor [(key, w)] ValidatorKind.comparison.name :=
      embeddedExtractor_congr (List.forall_mem_singleton.mpr hkey)
    rw [hasExtractor, hasExtractor, hkey, hextractor]
  · rfl
  · rfl

/-- **A validator depends on a registry by what the keys of its configuration stand for.** -/
theorem buildValidator_congr (kind : ValidatorKind)
    (h : ∀ key ∈ config.extractorKeys, q.extractor? key = q'.extractor? key) :
    q.buildValidator kind config = q'.buildValidator kind config := by
  cases config with
  | object fields =>
    have hextractor : ∀ part, q.embeddedExtractor fields part = q'.embeddedExtractor fields part :=
      fun part => embeddedExtractor_congr fun key hkey => h key (List.mem_append_left _ hkey)
    have hexpected : ∀ v, Entries.get? "expected" fields = some v →
        q.expectedOf v = q'.expectedOf v := by
      intro v hv
      refine expectedOf_congr fun key w hw => h key (List.mem_append_right _ ?_)
      change key ∈ Entries.keys ((Value.ofOption (Entries.get? "expected" fields)).object?.getD [])
      rw [hv, hw]
      exact List.mem_cons_self ..
    cases kind with
    | contains => rfl
    | notContains => rfl
    | extractTest =>
      unfold buildValidator
      refine Except.bind_congr fun fields' hfields => ?_
      cases hfields
      simp only [hextractor]
    | comparison =>
      unfold buildValidator
      refine Except.bind_congr fun fields' hfields => ?_
      cases hfields
      simp only [hextractor]
      split
      · rfl
      · cases hv : Entries.get? "expected" fields with
        | none => rfl
        | some v => simp only [hexpected v hv]
    | assertTrue =>
      unfold buildValidator
      refine Except.bind_congr fun fields' hfields => ?_
      cases hfields
      simp only [hextractor]
  | _ =>
    cases kind with
    | contains => rfl
    | notContains => rfl
    | _ =>
      unfold buildValidator
      exact Except.bind_congr fun fields' hfields => nomatch hfields

/-- What a kind makes of a configuration is the same in registries that agree on the extractors
which a validator may look up. -/
theorem parse_congr {s : Section} (a : Alias s.Kind) (bindings : Mapping)
    (h : s = .validators →
      ∀ key ∈ (a.configure config).extractorKeys, q.extractor? key = q'.extractor? key) :
    q.parse s a bindings config = q'.parse s a bindings config := by
  cases s with
  | validators =>
    rw [parse, parse]
    exact buildValidator_congr a.kind (h rfl)
  | _ => rfl

end Registry

/-! ## Aliases of a load -/

namespace Extension

open Alias

variable {tree : FileTree} {directory : String} {names : List String} {r r' : Registry}

/-- **An alias does what the presets of its chain and the kind at its end do.**  A load that
succeeds is the registration of what the manifests declare, in order.  Each of these has a chain:
its base stands, where it takes place, for earlier registrations over something that the first
registry has.  However much is registered afterwards, unless it is the same name, the alias stands
for its chain: a configuration under it is what the end of the chain makes of the configuration over
all presets.  This is the same at once and later; only a validator may change, and only if an
extractor is registered under one of the keys in its configuration. -/
theorem loadInto_aliases (h : loadInto tree directory r = (.ok names, r')) :
    ∃ xs, registrations tree directory = .ok xs ∧ names = xs.map (·.name) ∧
      r.registerAll xs = some r' ∧
      ∀ before x after, xs = before ++ x :: after →
        ∃ links a q₀, StandsFor r x.under before x.base links a ∧
          links.reverse.Sublist before ∧ r.registerAll (before ++ [x]) = some q₀ ∧
          ∀ later, later <+: after → (∀ y ∈ later, ¬ y.Names x.under x.name) →
            ∃ q, r.registerAll (before ++ x :: later) = some q ∧
              StandsFor r x.under (before ++ x :: later) x.name (x :: links) a ∧
              ∀ key bindings config, lower key = x.name → x.under.Admits config →
                q.declare x.under key bindings config =
                  q.parse x.under a bindings (overlayAll (x :: links) config) ∧
                ((x.under = .validators →
                    ∀ k ∈ (a.configure (overlayAll (x :: links) config)).extractorKeys,
                      ∀ y ∈ later, ¬ y.Names .extractors (lower k)) →
                  q.declare x.under key bindings config =
                    q₀.declare x.under key bindings config) := by
  obtain ⟨xs, hxs, hnames, hr'⟩ := registers_of_loadInto h
  have hlower := isLower_of_mem_registrations hxs
  refine ⟨xs, hxs, hnames, hr', ?_⟩
  rintro before x after rfl
  have hbefore : ∀ y ∈ before, y.IsLower := fun y hy => hlower y (List.mem_append_left _ hy)
  have hx : x.IsLower := hlower x (List.mem_append_right _ (List.mem_cons_self ..))
  -- the registries before and after the registration
  rw [Registry.registerAll_append] at hr'
  obtain ⟨q₁, hq₁, hr'⟩ := Option.bind_eq_some_iff.mp hr'
  rw [Registry.registerAll_cons] at hr'
  obtain ⟨q₀, hq₀, hr'⟩ := Option.bind_eq_some_iff.mp hr'
  obtain ⟨b, hb, -⟩ := Registry.alias?_register hq₀ hx.1
  obtain ⟨links, a, hchain, -⟩ := exists_standsFor hq₁ hbefore hx.2 hb
  have hafter : ∀ later q, q₀.registerAll later = some q →
      r.registerAll (before ++ x :: later) = some q := by
    intro later q hq
    rw [Registry.registerAll_append, hq₁, Option.bind_some, Registry.registerAll_cons, hq₀,
      Option.bind_some, hq]
  refine ⟨links, a, q₀, hchain, hchain.sublist, hafter [] q₀ rfl, ?_⟩
  rintro later ⟨rest, rfl⟩ hnot
  rw [Registry.registerAll_append] at hr'
  obtain ⟨q, hq, -⟩ := Option.bind_eq_some_iff.mp hr'
  have hstands : StandsFor r x.under (before ++ x :: later) x.name (x :: links) a :=
    .link rfl hnot hchain
  have hlater : ∀ y ∈ before ++ x :: later, y.IsLower := by
    intro y hy
    refine hlower y ?_
    rw [← List.cons_append, ← List.append_assoc]
    exact List.mem_append_left _ hy
  refine ⟨q, hafter later q hq, hstands, fun key bindings config hkey hconfig => ?_⟩
  have hdeclare : q.declare x.under key bindings config =
      q.parse x.under a bindings (overlayAll (x :: links) config) := by
    rw [Registry.declare_eq_parse (hstands.alias? (hafter later q hq) hlater hkey) hconfig,
      Registry.parse_beneath]
  refine ⟨hdeclare, fun hsame => ?_⟩
  have hone : StandsFor r x.under (before ++ [x]) x.name (x :: links) a :=
    .link rfl (fun y hy => nomatch hy) hchain
  have honelower : ∀ y ∈ before ++ [x], y.IsLower := by
    intro y hy
    rcases List.mem_append.mp hy with hy | hy
    · exact hbefore y hy
    · exact List.mem_singleton.mp hy ▸ hx
  rw [hdeclare, Registry.declare_eq_parse (hone.alias? (hafter [] q₀ rfl) honelower hkey) hconfig,
    Registry.parse_beneath]
  refine Registry.parse_congr a bindings fun hs k hk => ?_
  exact Registry.alias?_registerAll_of_not_names (s := .extractors) hq (hsame hs k hk)

/-- Two extractors, the first of them under the name of its own base. -/
def reusingHeader : FileTree where
  root := "/r"
  nodes := [
    (["x"], .directory),
    (["x", "a.json"], Compiler.asciiFile ("\x7b\"extractors\":\x7b\"header\":" ++
      "\x7b\"type\":\"header\",\"config\":\"X-User\"\x7d," ++
      "\"who\":\x7b\"type\":\"Header\",\"config\":null\x7d\x7d\x7d"))]

/-- `who` reads the header of the first extractor, and that one reads headers as before. -/
theorem loadInto_reusingHeader :
    ∃ r', loadInto reusingHeader "/r/x" .builtins = (.ok ["header", "who"], r') ∧
      (r'.declareExtractor "Who" .null).toOption.map Extractor.describe =
        some "header 'X-User'" ∧
      ∃ xs, registrations reusingHeader "/r/x" = .ok xs ∧ ["header", "who"] = xs.map (·.name) ∧
        Registry.builtins.registerAll xs = some r' ∧
        ∀ before x after, xs = before ++ x :: after →
          ∃ links a, StandsFor .builtins x.under before x.base links a ∧
            links.reverse.Sublist before := by
  have hload : (loadInto reusingHeader "/r/x" .builtins).1.toOption = some ["header", "who"] ∧
      ((loadInto reusingHeader "/r/x" .builtins).2.declareExtractor "Who" .null).toOption.map
        Extractor.describe = some "header 'X-User'" := by decide +kernel
  obtain ⟨hnames, hwho⟩ := hload
  rcases h : loadInto reusingHeader "/r/x" .builtins with ⟨e | names, r'⟩
  · rw [h] at hnames
    cases hnames
  · rw [h] at hnames hwho
    cases hnames
    obtain ⟨xs, hxs, hall, hr', hchains⟩ := loadInto_aliases h
    refine ⟨r', rfl, hwho, xs, hxs, hall, hr', fun before x after hx => ?_⟩
    obtain ⟨links, a, -, hchain, hsublist, -⟩ := hchains before x after hx
    exact ⟨links, a, hchain, hsublist⟩

/-- A validator over an extractor, and another extractor under the name of that one. -/
def replacingExtractor : FileTree where
  root := "/r"
  nodes := [
    (["x"], .directory),
    (["x", "a.json"], Compiler.asciiFile ("\x7b\"validators\":\x7b\"has_id\":" ++
      "\x7b\"type\":\"extract_test\",\"jsonpath_mini\":\"id\",\"test\":\"exists\"\x7d\x7d," ++
      "\"extractors\":\x7b\"jsonpath_mini\":\x7b\"type\":\"header\"\x7d\x7d\x7d"))]

/-- What `has_id` makes of nothing after the first and after both registrations. -/
def hasIdAfterEach : Option (List String) := do
  let xs ← (registrations replacingExtractor "/r/x").toOption
  [1, 2].mapM fun count => do
    let q ← Registry.builtins.registerAll (xs.take count)
    let v ← (q.declareValidator "has_id" .null).toOption
    return v.describe

/-- The second registration changes what `has_id` does. -/
theorem hasId_changes :
    (loadInto replacingExtractor "/r/x" .builtins).1.toOption = some ["has_id", "jsonpath_mini"] ∧
      hasIdAfterEach = some ["jsonpath_mini 'id' exists", "header 'id' exists"] := by
  decide +kernel

end Extension

end HttpSuite
