import HttpSuite.Proofs.Actions
import HttpSuite.Proofs.Context
import HttpSuite.Proofs.Template
import HttpSuite.Proofs.Variables

/-!
# What a pass comes to

In a pass a generator is pulled at its first reference only, so every reference to it has the value
that comes next.  That value can be told before the pass begins: it is what `Context.peek` gives for
the name.  So a pass, which threads generators and a table of pulled values through everything it
resolves, comes to the same as resolving each value against a fixed lookup
(`PassM.paired_foretold`).

The invariant is `Pass.Stands`: from the context where the pass began, some generators have been
pulled once and their values are in the table, and everything else is as it was.  The main statement
is `Context.pass_resolves`: what a pass gives is what the variables alone would give, had each of
those generators been bound to its next value beforehand.
-/

namespace HttpSuite

namespace Context

variable (c : Context)

/-- Whether a reference to the name is one to a generator: there is one, and no variable hides
it. -/
def generates (name : String) : Bool := (c.get? name).isNone && c.hasGenerator name

/-- What a reference to the name has for a value in a pass: its variable or, without one, the next
value of its generator. -/
def peek (name : String) : Except TemplateError Value :=
  match c.get? name with
  | some v => .ok v
  | none =>
    if c.hasGenerator name then (c.next name).1.mapError (.generator name)
    else .error (.unbound name)

/-- The context with the next values of some generators bound to their names.  No generator is
pulled. -/
def foresee (names : List String) : Context :=
  names.foldl (fun d name => match (c.next name).1 with
    | .ok v => d.bind name v
    | .error _ => d) c

/-- After `c` each of some generators has been pulled once, and nothing else has changed. -/
structure PulledOnce (pulled : List String) (c' : Context) : Prop where
  sameVariables : c.SameVariables c'
  names : Entries.keys c'.generators = Entries.keys c.generators
  advanced : ∀ name ∈ pulled, ∃ stream, Entries.get? name c.generators = some stream ∧
    Entries.get? name c'.generators = some (stream.pull c.environment).2
  others : ∀ name, name ∉ pulled →
    Entries.get? name c'.generators = Entries.get? name c.generators

variable {c}

theorem generates_iff {name : String} :
    c.generates name = true ↔ c.get? name = none ∧ c.hasGenerator name = true := by
  rw [generates, Bool.and_eq_true, Option.isNone_iff_eq_none]

/-- What has been foreseen is bound, and hides nothing else. -/
theorem get?_foresee {names : List String} (h : ∀ name ∈ names, ∃ v, (c.next name).1 = .ok v)
    (k : String) :
    (c.foresee names).get? k = if k ∈ names then (c.next k).1.toOption else c.get? k := by
  have hfrom (d : Context) :
      (names.foldl (fun d name => match (c.next name).1 with
        | .ok v => d.bind name v
        | .error _ => d) d).get? k = if k ∈ names then (c.next k).1.toOption else d.get? k := by
    induction names generalizing d with
    | nil => exact (if_neg List.not_mem_nil).symm
    | cons name rest ih =>
      obtain ⟨v, hv⟩ := h name (List.mem_cons_self ..)
      rw [List.foldl_cons, hv, ih fun n hn => h n (List.mem_cons_of_mem _ hn), get?_bind]
      by_cases hrest : k ∈ rest
      · rw [if_pos hrest, if_pos (List.mem_cons_of_mem _ hrest)]
      · by_cases hname : name = k
        · subst hname
          rw [if_neg hrest, if_pos rfl, if_pos (List.mem_cons_self ..), hv]
          rfl
        · have hnot : k ∉ name :: rest := by
            rw [List.mem_cons, not_or]
            exact ⟨fun hk => hname hk.symm, hrest⟩
          rw [if_neg hrest, if_neg hname, if_neg hnot]
  exact hfrom c

end Context

/-! ## The state of a pass -/

open Context (PulledOnce)

/-- A pass that began in `c` and has pulled some generators. -/
structure Pass.Stands (c : Context) (pulled : List String) (p : Pass) : Prop where
  context : c.PulledOnce pulled p.context
  generates : ∀ name ∈ pulled, c.generates name = true
  table : ∀ name, Entries.get? name p.pulled =
    if name ∈ pulled then (c.next name).1.toOption else none
  succeeded : ∀ name ∈ pulled, ∃ v, (c.next name).1 = .ok v

namespace Pass.Stands

variable {c : Context} {pulled pulled' : List String} {p : Pass} {name : String}

theorem start (c : Context) : Stands c [] ⟨c, []⟩ where
  context := ⟨.refl c, rfl, fun _ hname => absurd hname List.not_mem_nil, fun _ _ => rfl⟩
  generates := fun _ h => nomatch h
  table := fun _ => rfl
  succeeded := fun _ h => nomatch h

/-- It only matters which generators have been pulled. -/
theorem congr (h : Stands c pulled p) (hmem : ∀ name, name ∈ pulled ↔ name ∈ pulled') :
    Stands c pulled' p where
  context := ⟨h.context.sameVariables, h.context.names,
    fun name hname => h.context.advanced name ((hmem name).mpr hname),
    fun name hname => h.context.others name (mt (hmem name).mp hname)⟩
  generates := fun name hname => h.generates name ((hmem name).mpr hname)
  table := fun name => (h.table name).trans (if_congr (hmem name) rfl rfl)
  succeeded := fun name hname => h.succeeded name ((hmem name).mpr hname)

theorem get?_eq (h : Stands c pulled p) (name : String) : p.context.get? name = c.get? name := by
  rw [Context.get?, Context.get?, h.context.sameVariables.bindings_eq]

theorem hasGenerator_eq (h : Stands c pulled p) (name : String) :
    p.context.hasGenerator name = c.hasGenerator name := by
  rw [Bool.eq_iff_iff, Context.hasGenerator, Context.hasGenerator, Entries.contains,
    Entries.contains, Entries.get?_isSome_iff, Entries.get?_isSome_iff, h.context.names]

/-- **A first pull** gives the value that was to come, and the pass goes on with it in its table. -/
theorem pull (h : Stands c pulled p) (hnew : name ∉ pulled) (hg : c.generates name = true) :
    (p.context.next name).1 = (c.next name).1 ∧
      ∀ v, (c.next name).1 = .ok v →
        Stands c (pulled ++ [name]) ⟨(p.context.next name).2, p.pulled ++ [(name, v)]⟩ := by
  obtain ⟨stream, hstream⟩ := Context.exists_stream (Context.generates_iff.mp hg).2
  have henv := h.context.sameVariables.environment_eq
  have hnext := Context.next_eq hstream
  have hpull := Context.next_eq ((h.context.others name hnew).trans hstream)
  rw [← henv] at hpull
  rw [hpull, hnext]
  refine ⟨rfl, fun v hv => ?_⟩
  have hmem (k : String) : k ∈ pulled ++ [name] ↔ k ∈ pulled ∨ k = name := by
    rw [List.mem_append, List.mem_singleton]
  constructor
  case context =>
    refine ⟨h.context.sameVariables.trans ⟨henv.symm, rfl⟩, ?_, fun k hk => ?_, fun k hk => ?_⟩
    · have hkeys : name ∈ Entries.keys p.context.generators :=
        Entries.get?_isSome_iff.mp (by rw [h.context.others name hnew, hstream]; rfl)
      rw [Entries.keys_insert, Entries.addKey, if_pos hkeys, h.context.names]
    · rw [Entries.get?_insert]
      rcases (hmem k).mp hk with hk | rfl
      · rw [if_neg (by rintro rfl; exact hnew hk)]
        exact h.context.advanced k hk
      · exact ⟨stream, hstream, if_pos rfl⟩
    · rw [hmem, not_or] at hk
      rw [Entries.get?_insert, if_neg fun heq => hk.2 heq.symm, h.context.others k hk.1]
  case generates =>
    intro k hk
    rcases (hmem k).mp hk with hk | rfl
    · exact h.generates k hk
    · exact hg
  case table =>
    intro k
    rw [Entries.get?_append, h.table k]
    by_cases hk : k ∈ pulled
    · obtain ⟨w, hw⟩ := h.succeeded k hk
      rw [if_pos hk, if_pos ((hmem k).mpr (.inl hk)), hw]
      rfl
    · rw [if_neg hk]
      by_cases hname : k = name
      · subst hname
        rw [if_pos ((hmem k).mpr (.inr rfl)), hnext, hv]
        simp [Entries.get?, Except.toOption]
      · rw [if_neg fun hin => hname (((hmem k).mp hin).resolve_left hk), Entries.get?,
          if_neg fun heq => hname heq.symm]
        rfl
  case succeeded =>
    intro k hk
    rcases (hmem k).mp hk with hk | rfl
    · exact h.succeeded k hk
    · exact ⟨v, hnext ▸ hv⟩

end Pass.Stands

/-! ## A pass foretold -/

namespace PassM

open Pass (Stands)

variable {α β : Type}

/-- Wherever a pass that began in `c` stands, the action comes to a result that is foretold, and on
success it has pulled what generators there are among some names. -/
def Foretold (c : Context) (names : List String) (action : PassM α)
    (result : Except TemplateError α) : Prop :=
  ∀ pulled p, Stands c pulled p → (action.run.run p).1 = result ∧
    ∀ a, result = .ok a → Stands c (pulled ++ names.filter c.generates) (action.run.run p).2

variable {c : Context}

theorem foretold_pure (a : α) : Foretold c [] (pure a) (pure a) := by
  intro pulled p h
  refine ⟨rfl, fun _ _ => ?_⟩
  rwa [List.filter_nil, List.append_nil]

theorem Foretold.bind {names later : List String} {x : PassM α} {y : Except TemplateError α}
    {f : α → PassM β} {g : α → Except TemplateError β} (hx : Foretold c names x y)
    (hf : ∀ a, Foretold c later (f a) (g a)) : Foretold c (names ++ later) (x >>= f) (y >>= g) := by
  intro pulled p h
  obtain ⟨hresult, hstands⟩ := hx pulled p h
  rw [ExceptT.run_run_bind]
  rcases hr : x.run.run p with ⟨e | a, q⟩
  · rw [hr] at hresult
    subst hresult
    exact ⟨rfl, fun b hb => nomatch hb⟩
  · rw [hr] at hresult hstands
    subst hresult
    rw [List.filter_append, ← List.append_assoc]
    exact hf a _ q (hstands a rfl)

/-- **One reference.**  A variable and a value in the table are as they are; otherwise the generator
is pulled for the first time. -/
theorem foretold_lookup (name : String) : Foretold c [name] (lookup name) (c.peek name) := by
  intro pulled p h
  change (lookup name p).1 = _ ∧ ∀ a, _ → Stands c _ (lookup name p).2
  unfold lookup Context.peek
  rw [h.get?_eq name]
  cases hbound : c.get? name with
  | some v =>
    refine ⟨rfl, fun _ _ => ?_⟩
    have hnot : c.generates name = false := by rw [Context.generates, hbound]; rfl
    rw [List.filter_singleton, hnot]
    simpa using h
  | none =>
    by_cases hmem : name ∈ pulled
    · obtain ⟨v, hv⟩ := h.succeeded name hmem
      have htable : Entries.get? name p.pulled = some v := by
        rw [h.table name, if_pos hmem, hv]
        rfl
      have hgen := (Context.generates_iff.mp (h.generates name hmem)).2
      rw [htable, if_pos hgen, hv]
      refine ⟨rfl, fun _ _ => h.congr fun k => ?_⟩
      rw [List.filter_singleton, h.generates name hmem]
      simp only [cond_true, List.mem_append, List.mem_singleton]
      exact ⟨.inl, fun hk => hk.elim id fun hk => hk ▸ hmem⟩
    · rw [h.table name, if_neg hmem]
      simp only [h.hasGenerator_eq name]
      by_cases hgen : c.hasGenerator name = true
      · have hg := Context.generates_iff.mpr ⟨hbound, hgen⟩
        obtain ⟨hfirst, hstands⟩ := h.pull hmem hg
        rw [if_pos hgen, if_pos hgen, List.filter_singleton, hg]
        rcases hp : p.context.next name with ⟨e | v, d⟩
        · rw [hp] at hfirst
          rw [← hfirst]
          exact ⟨rfl, fun a ha => nomatch ha⟩
        · rw [hp] at hfirst hstands
          rw [← hfirst]
          exact ⟨rfl, fun _ _ => hstands v hfirst.symm⟩
      · rw [if_neg hgen, if_neg hgen]
        exact ⟨rfl, fun a ha => nomatch ha⟩

/-- **Resolving in a pass is resolving against what was foreseen.** -/
theorem paired_foretold (c : Context) : Template.Paired lookup c.peek (Foretold c) where
  lookup := foretold_lookup
  pure := foretold_pure
  bind := Foretold.bind

/-- A whole pass comes to what is foretold. -/
theorem Foretold.pass {names : List String} {action : PassM α} {result : Except TemplateError α}
    (h : Foretold c names action result) : (c.pass action).1 = result ∧
      ∀ a, result = .ok a → c.PulledOnce (names.filter c.generates) (c.pass action).2 := by
  obtain ⟨hresult, hstands⟩ := h [] ⟨c, []⟩ (.start c)
  exact ⟨hresult, fun a ha => (hstands a ha).context⟩

/-! ## Many values in one pass -/

/-- What is resolved in a pass: a value as it is, or a text to a text. -/
inductive Item where
  | value (v : Value)
  | text (s : String)

namespace Item

/-- The value whose references are replaced. -/
def template : Item → Value
  | value v => v
  | text s => .string s

def resolve : Item → PassM Value
  | value v => PassM.resolve v
  | text s => do return .string (← resolveString s)

/-- The same against variables alone. -/
def resolveBound (c : Context) : Item → Except TemplateError Value
  | value v => c.resolveBound v
  | text s => (c.renderBound s).map .string

/-- The result of an item, given its template with the references replaced. -/
def ofResolved : Item → Value → Value
  | value _, w => w
  | text _, w => .string w.render

theorem foretold_resolve (c : Context) (item : Item) :
    Foretold c (Template.references item.template) item.resolve
      ((Template.resolve c.peek item.template).map item.ofResolved) := by
  have hpaired := Template.resolve_paired (paired_foretold c) item.template
  have hmap (e : Except TemplateError Value) (f : Value → Value) :
      e.map f = e >>= fun w => Pure.pure (f w) := by cases e <;> rfl
  rw [hmap]
  cases item with
  | value v =>
    have hsame : (PassM.resolve v >>= fun w => Pure.pure w) = PassM.resolve v := bind_pure _
    rw [resolve, ← hsame]
    exact (paired_foretold c).map hpaired _
  | text s =>
    have hsteps : resolve (.text s) =
        PassM.resolve (.string s) >>= fun w => Pure.pure (.string w.render) := by
      rw [resolve, resolveString, bind_assoc]
      rfl
    rw [hsteps]
    exact (paired_foretold c).map hpaired _

theorem resolveBound_eq (c : Context) (item : Item) :
    item.resolveBound c = (Template.resolve c.lookupBound item.template).map item.ofResolved := by
  cases item with
  | value v =>
    rw [resolveBound, Context.resolveBound, template]
    cases Template.resolve c.lookupBound v <;> rfl
  | text s =>
    rw [resolveBound, Context.renderBound, Context.resolveBound, template]
    cases Template.resolve c.lookupBound (.string s) <;> rfl

/-- **Many items** are foretold one after another. -/
theorem foretold_mapM (c : Context) (items : List Item) :
    Foretold c (Template.references (.array (items.map template))) (items.mapM resolve)
      (items.mapM fun item => (Template.resolve c.peek item.template).map item.ofResolved) := by
  induction items with
  | nil => exact foretold_pure _
  | cons item rest ih =>
    rw [List.mapM_cons, List.mapM_cons]
    exact (foretold_resolve c item).bind fun _ => (paired_foretold c).map ih _

end Item

end PassM

namespace Context

open PassM (Item)

variable {c : Context}

/-- Where all generators that a name may stand for are foreseen, a reference to it is what it is in
a pass. -/
theorem lookupBound_foresee {pulled : List String}
    (hgenerates : ∀ name ∈ pulled, c.generates name = true)
    (hsucceeded : ∀ name ∈ pulled, ∃ v, (c.next name).1 = .ok v) {name : String}
    (hname : c.generates name = true → name ∈ pulled) :
    (c.foresee pulled).lookupBound name = c.peek name := by
  rw [lookupBound, get?_foresee hsucceeded, peek]
  by_cases hmem : name ∈ pulled
  · obtain ⟨hbound, hgen⟩ := generates_iff.mp (hgenerates name hmem)
    obtain ⟨v, hv⟩ := hsucceeded name hmem
    rw [if_pos hmem, hbound, if_pos hgen, hv]
    rfl
  · rw [if_neg hmem]
    cases hbound : c.get? name with
    | some v => rfl
    | none => exact (if_neg fun hgen => hmem (hname (generates_iff.mpr ⟨hbound, hgen⟩))).symm

/-- **What a pass comes to.**  Let a pass resolve some items, all of them successfully, and let
`pulled` be the names among their references that stand for a generator.  Each result is what the
item gives against variables alone, in the context with the next values of those generators bound to
their names.  In the context that is left each of them has been pulled once, and nothing else has
changed; one that a variable hides is not among them. -/
theorem pass_resolves {c' : Context} {items : List Item} {results : List Value}
    (h : c.pass (items.mapM Item.resolve) = (.ok results, c')) :
    let pulled := (Template.names (.array (items.map Item.template))).filter c.generates
    List.Forall₂ (fun item result => item.resolveBound (c.foresee pulled) = .ok result)
        items results ∧
      (∀ name ∈ pulled, ∃ stream v, Entries.get? name c.generators = some stream ∧
        (stream.pull c.environment).1 = .ok v ∧ (c.foresee pulled).get? name = some v) ∧
      (∀ name, name ∉ pulled → (c.foresee pulled).get? name = c.get? name) ∧
      c.PulledOnce pulled c' ∧
      ∀ name v, c.get? name = some v → name ∉ pulled := by
  intro pulled
  obtain ⟨hresults, hstands⟩ := Item.foretold_mapM c items [] ⟨c, []⟩ (.start c)
  rcases hrun : (items.mapM Item.resolve).run.run ⟨c, []⟩ with ⟨outcome, p⟩
  rw [pass, hrun] at h
  rw [hrun] at hresults hstands
  obtain ⟨rfl, rfl⟩ : outcome = .ok results ∧ p.context = c' := Prod.mk.inj h
  have hstands : Pass.Stands c pulled p := (hstands results hresults.symm).congr fun name => by
    rw [List.nil_append, List.mem_filter, List.mem_filter, Template.mem_names]
  have hsucceeded := hstands.succeeded
  refine ⟨?_, fun name hname => ?_, fun name hname => ?_, hstands.context,
    fun name v hv hname => ?_⟩
  · have hitems := (List.forall₂_and_left items results).mpr
      ⟨fun item hitem => hitem, mapM_eq_ok_iff.mp hresults.symm⟩
    refine hitems.imp fun item result ⟨hitem, hresult⟩ => ?_
    rw [item.resolveBound_eq, ← hresult]
    refine congrArg (Except.map item.ofResolved) (Template.resolve_congr fun name hname => ?_)
    refine lookupBound_foresee hstands.generates hsucceeded fun hgenerates => ?_
    exact List.mem_filter.mpr ⟨Template.mem_names.mpr (Template.mem_referencesOfItems
      (List.mem_map_of_mem hitem) hname), hgenerates⟩
  · obtain ⟨v, hv⟩ := hsucceeded name hname
    obtain ⟨stream, hstream⟩ := exists_stream (generates_iff.mp (hstands.generates name hname)).2
    refine ⟨stream, v, hstream, ?_, ?_⟩
    · rw [← hv, next_eq hstream]
    · rw [get?_foresee hsucceeded, if_pos hname, hv]
      rfl
  · rw [get?_foresee hsucceeded, if_neg hname]
  · rw [(generates_iff.mp (hstands.generates name hname)).1] at hv
    cases hv

/-- Three generators that count, one of which a variable hides. -/
def counting : Context where
  environment := []
  bindings := [("m", .string "fixed")]
  generators := [("k", .sequence 5 5), ("m", .sequence 7 7), ("n", .sequence 1 1)]

/-- A value and a text that refer to one generator three times, and to the hidden one. -/
def countingItems : List Item :=
  [.value (.object [("id", .string "{{n}}"), ("of", .string "{{m}}")]),
    .text "/{{n}}/{{m}}?id={{ n }}"]

/-- In a pass over `countingItems` one generator is pulled, once. -/
theorem pass_resolves_countingItems :
    ∃ results c', counting.pass (countingItems.mapM Item.resolve) = (.ok results, c') ∧
      results.map Value.render = ["\x7b\"id\":1,\"of\":\"fixed\"\x7d", "/1/fixed?id=1"] ∧
      List.Forall₂ (fun item result => item.resolveBound (counting.foresee ["n"]) = .ok result)
        countingItems results ∧
      counting.PulledOnce ["n"] c' := by
  have hnames : (Template.names (.array (countingItems.map Item.template))).filter
      counting.generates = ["n"] := by decide +kernel
  have htexts : (counting.pass (countingItems.mapM Item.resolve)).1.toOption.map
      (List.map Value.render) =
        some ["\x7b\"id\":1,\"of\":\"fixed\"\x7d", "/1/fixed?id=1"] := by decide +kernel
  rcases hrun : counting.pass (countingItems.mapM Item.resolve) with ⟨e | results, c'⟩
  · rw [hrun] at htexts
    cases htexts
  · rw [hrun] at htexts
    obtain ⟨hresults, -, -, honce, -⟩ := pass_resolves hrun
    rw [hnames] at hresults honce
    exact ⟨results, c', rfl, Option.some.inj htexts, hresults, honce⟩

end Context

end HttpSuite
