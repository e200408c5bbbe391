import HttpSuite.Proofs.Pass
import HttpSuite.Proofs.Run.Answering
import HttpSuite.Proofs.Run.Frame
import HttpSuite.Proofs.Stream

/-!
# How often a test pulls a generator

A test resolves templates in several passes, one for each variable that it binds and one for its
whole request, and in each of them a generator is pulled at most once.  In between it binds the next
values of generators outright.  `Test.pulls` counts the pulls of one generator without running
anything: only the names matter, those in the templates and those that are bound by then and hide the
generator.

`Test.run_pulls` says that the count is exact for a test whose preparation succeeds, whatever comes
back for its request: from then on no generator moves.
-/

namespace HttpSuite

variable {σ : Type}

/-! ## Generators that move on -/

/-- From `c` to `d` each generator has been pulled as often as it says. -/
structure Context.Advances (c d : Context) (pulls : String → Nat) : Prop where
  environment_eq : c.environment = d.environment
  stream : ∀ g s, Entries.get? g c.generators = some s →
    Entries.get? g d.generators = some (s.after c.environment (pulls g))

namespace Context.Advances

variable {c d e : Context} {pulls more : String → Nat}

theorem trans (h : c.Advances d pulls) (h' : d.Advances e more) :
    c.Advances e fun g => pulls g + more g where
  environment_eq := h.environment_eq.trans h'.environment_eq
  stream := fun g s hs => by
    rw [h'.stream g _ (h.stream g s hs), ← h.environment_eq, s.after_after]

theorem congr (h : c.Advances d pulls) (heq : ∀ g, pulls g = more g) : c.Advances d more :=
  funext heq ▸ h

/-- Where no generator is touched, none has moved. -/
theorem of_generators_eq (henv : c.environment = d.environment)
    (hgens : c.generators = d.generators) : c.Advances d fun _ => 0 where
  environment_eq := henv
  stream := fun g s hs => by
    rw [← hgens, hs, s.after_zero]

/-- After a pass the generators that it refers to, and that no variable hides, have been pulled. -/
theorem of_pulledOnce {names : List String} (h : c.PulledOnce (names.filter c.generates) d) :
    c.Advances d fun g => if g ∈ names ∧ c.get? g = none then 1 else 0 where
  environment_eq := h.sameVariables.environment_eq
  stream := fun g s hs => by
    have hgen : c.hasGenerator g = true := Option.isSome_iff_exists.mpr ⟨s, hs⟩
    have hmem : g ∈ names.filter c.generates ↔ g ∈ names ∧ c.get? g = none := by
      rw [List.mem_filter, generates_iff, and_iff_left hgen]
    by_cases hpulled : g ∈ names ∧ c.get? g = none
    · obtain ⟨s', hs', hget⟩ := h.advanced g (hmem.mpr hpulled)
      rw [hs] at hs'
      cases hs'
      rw [hget, if_pos hpulled, s.after_one]
    · rw [h.others g (mt hmem.mp hpulled), hs, if_neg hpulled, s.after_zero]

theorem of_next (c : Context) (name : String) :
    c.Advances (c.next name).2 fun g => if name = g then 1 else 0 where
  environment_eq := (c.sameVariables_next name).environment_eq
  stream := fun g s hs => by
    by_cases hname : name = g
    · subst hname
      rw [next_eq hs, Entries.get?_insert, if_pos rfl, if_pos rfl, s.after_one]
    · rw [if_neg hname, s.after_zero]
      unfold next
      split
      · exact hs
      · exact (Entries.get?_insert ..).trans ((if_neg hname).trans hs)

end Context.Advances

/-! ## Fields that are resolved in one pass -/

namespace Template

theorem referencesOfItems_append (items more : List Value) :
    referencesOfItems (items ++ more) = referencesOfItems items ++ referencesOfItems more := by
  induction items with
  | nil => rfl
  | cons v rest ih => rw [List.cons_append, referencesOfItems, referencesOfItems, ih,
      List.append_assoc]

end Template

namespace PassM

variable {α β : Type} {c : Context}

/-- In a pass that began in `c` the action resolves some fields, and nothing else. -/
def ResolvesFields (c : Context) (fields : List Value) (action : PassM α) : Prop :=
  ∃ result, Foretold c (Template.referencesOfItems fields) action result

theorem resolvesFields_pure (a : α) : ResolvesFields c [] (pure a : PassM α) :=
  ⟨_, foretold_pure a⟩

theorem ResolvesFields.bind {fields later : List Value} {x : PassM α} {f : α → PassM β}
    (hx : ResolvesFields c fields x) (hf : ∀ a, ResolvesFields c later (f a)) :
    ResolvesFields c (fields ++ later) (x >>= f) := by
  obtain ⟨y, hy⟩ := hx
  choose g hg using hf
  rw [ResolvesFields, Template.referencesOfItems_append]
  exact ⟨y >>= g, hy.bind hg⟩

/-- An action whose result is only put into a form. -/
theorem ResolvesFields.map {fields : List Value} {x : PassM α} (hx : ResolvesFields c fields x)
    (f : α → β) : ResolvesFields c fields (x >>= fun a => pure (f a)) := by
  have hbind := hx.bind fun a => resolvesFields_pure (f a)
  rwa [List.append_nil] at hbind

theorem resolvesFields_resolve (v : Value) : ResolvesFields c [v] (resolve v) := by
  have hv := Template.resolve_paired (paired_foretold c) v
  exact ⟨_, by rwa [Template.referencesOfItems, Template.referencesOfItems, List.append_nil]⟩

theorem resolvesFields_resolveString (s : String) :
    ResolvesFields c [.string s] (resolveString s) :=
  (resolvesFields_resolve _).map _

/-- A variable is looked at without resolving anything. -/
theorem resolvesFields_getVariable (name : String) : ResolvesFields c [] (getVariable name) := by
  refine ⟨.ok (c.get? name), fun pulled p h => ⟨congrArg Except.ok (h.get?_eq name), fun _ _ => ?_⟩⟩
  change Pass.Stands c (pulled ++ [].filter c.generates) p
  rwa [List.filter_nil, List.append_nil]

/-- A pass that succeeds has pulled what generators there are among its fields, unless a variable
hides them. -/
theorem ResolvesFields.advances {fields : List Value} {action : PassM α}
    (h : ResolvesFields c fields action) {a : α} {d : Context} (hpass : c.pass action = (.ok a, d)) :
    c.Advances d fun g => if g ∈ Template.referencesOfItems fields ∧ c.get? g = none then 1 else 0 := by
  obtain ⟨result, hresult⟩ := h
  obtain ⟨heq, honce⟩ := hresult.pass
  rw [hpass] at heq honce
  exact .of_pulledOnce (honce a heq.symm)

end PassM

namespace Test

open PassM (ResolvesFields)

variable {c : Context}

/-- The fields of a user; a password counts only with one. -/
def credentialFields (t : Test) : List Value :=
  match t.authUsername with
  | none => []
  | some user => user :: t.authPassword.toList

/-- The fields of a request that are templates, in the order in which they are resolved. -/
def requestFields (t : Test) : List Value :=
  .string t.url :: (t.headers.map Prod.snd ++ (t.body.toList ++ t.credentialFields))

theorem resolvesFields_resolveUrl (t : Test) : ResolvesFields c [.string t.url] t.resolveUrl := by
  unfold resolveUrl
  refine (PassM.resolvesFields_resolveString t.url).bind fun url => ?_
  split
  · exact PassM.resolvesFields_pure _
  · refine (PassM.resolvesFields_getVariable _).bind fun base => ?_
    cases base <;> exact PassM.resolvesFields_pure _

theorem resolvesFields_resolveHeaders (headers : Mapping) :
    ResolvesFields c (headers.map Prod.snd) (resolveHeaders headers) := by
  induction headers with
  | nil => exact PassM.resolvesFields_pure _
  | cons h rest ih => exact (PassM.resolvesFields_resolve h.2).bind fun _ => ih.map _

theorem resolvesFields_resolveBody (body : Option Value) :
    ResolvesFields c body.toList (resolveBody body) := by
  cases body with
  | none => exact PassM.resolvesFields_pure _
  | some v => exact (PassM.resolvesFields_resolve v).map _

theorem resolvesFields_resolveAuth (t : Test) :
    ResolvesFields c t.credentialFields t.resolveAuth := by
  unfold resolveAuth credentialFields
  cases t.authUsername with
  | none => exact PassM.resolvesFields_pure _
  | some user =>
    cases t.authPassword with
    | none => exact (PassM.resolvesFields_resolve user).map _
    | some password =>
      exact (PassM.resolvesFields_resolve user).bind fun _ =>
        (PassM.resolvesFields_resolve password).map _

/-- **A request is resolved in one pass** over its fields. -/
theorem resolvesFields_resolveRequest (t : Test) :
    ResolvesFields c t.requestFields t.resolveRequest :=
  t.resolvesFields_resolveUrl.bind fun _ =>
    (resolvesFields_resolveHeaders t.headers).bind fun _ =>
      (resolvesFields_resolveBody t.body).bind fun _ => t.resolvesFields_resolveAuth.map _

end Test

/-! ## Counting -/

/-- No variable has the name: the context has none, and none has been bound since. -/
def Context.isFree (c : Context) (since : List String) (name : String) : Bool :=
  (c.get? name).isNone && !since.contains name

/-- The number of pulls of a generator in the preparation of a test.  A template pulls it if it
refers to it while no variable has its name, what is bound outright pulls it each time, and the
request pulls it once if any of its fields refers to it while no variable has its name. -/
def Test.pulls (t : Test) (c : Context) (g : String) : Nat :=
  (List.range t.variableBinds.length).countP (fun i =>
      t.variableBinds[i]?.any (fun e => (Template.names e.2).contains g) &&
        c.isFree (Entries.keys (t.variableBinds.take i)) g) +
    t.generatorBinds.countP (fun e => e.2 == g) +
    if (Template.names (.array t.requestFields)).contains g && c.isFree (Entries.keys t.sources) g
      then 1 else 0

namespace Source

/-- The number of pulls of a generator for one value, which a variable may hide. -/
def pulls (g : String) (hidden : Bool) : Source → Nat
  | template v => if (Template.names v).contains g && !hidden then 1 else 0
  | generator name => if name == g then 1 else 0
  | extractor _ => 0

/-- The number of pulls of a generator along some sources.  From where a variable of its name is
bound it is hidden. -/
def pullsAll (g : String) : Bool → List (String × Source) → Nat
  | _, [] => 0
  | hidden, (name, source) :: rest =>
    source.pulls g hidden + pullsAll g (hidden || name == g) rest

variable {g : String}

theorem pullsAll_append (hidden : Bool) (xs ys : List (String × Source)) :
    pullsAll g hidden (xs ++ ys) =
      pullsAll g hidden xs + pullsAll g (hidden || (Entries.keys xs).contains g) ys := by
  induction xs generalizing hidden with
  | nil => simp [pullsAll, Entries.keys]
  | cons x rest ih =>
    obtain ⟨name, source⟩ := x
    have hhidden : (hidden || name == g || (Entries.keys rest).contains g) =
        (hidden || (Entries.keys ((name, source) :: rest)).contains g) := by
      rw [Bool.or_assoc, Entries.keys, Entries.keys, List.map_cons, List.contains_cons,
        Bool.beq_comm]
    rw [List.cons_append, pullsAll, pullsAll, ih, hhidden, Nat.add_assoc]

theorem pullsAll_templates (c : Context) (since : List String) (binds : Mapping) :
    pullsAll g (!c.isFree since g) (binds.map fun e => (e.1, template e.2)) =
      (List.range binds.length).countP fun i =>
        binds[i]?.any (fun e => (Template.names e.2).contains g) &&
          c.isFree (since ++ Entries.keys (binds.take i)) g := by
  -- the names that are bound grow by one with every entry
  induction binds generalizing since with
  | nil => rfl
  | cons e rest ih =>
    have hsince : (!c.isFree since g || e.1 == g) = !c.isFree (since ++ [e.1]) g := by
      simp [Context.isFree, Bool.or_assoc, beq_eq_decide, eq_comm]
    rw [List.map_cons, pullsAll, hsince, ih, List.length_cons, List.range_succ_eq_map,
      List.countP_cons, List.countP_map, Nat.add_comm]
    congr 1
    · refine List.countP_congr fun i _ => ?_
      simp [Entries.keys]
    · simp [pulls, Entries.keys]

theorem pullsAll_generators (hidden : Bool) (binds : List (String × String)) :
    pullsAll g hidden (binds.map fun e => (e.1, generator e.2)) =
      binds.countP fun e => e.2 == g := by
  induction binds generalizing hidden with
  | nil => rfl
  | cons e rest ih => rw [List.map_cons, pullsAll, ih, List.countP_cons, Nat.add_comm]; rfl

theorem pullsAll_extractors (hidden : Bool) (xs : List (String × Extractor)) :
    pullsAll g hidden (xs.map fun e => (e.1, extractor e.2)) = 0 := by
  induction xs generalizing hidden with
  | nil => rfl
  | cons e rest ih => rw [List.map_cons, pullsAll, ih]; rfl

end Source

/-! ## Pulls along a test -/

variable {c left : Context} {name g : String} {source : Source}

/-- A source that gives its value pulls what it counts, and the variables say what is hidden. -/
theorem Source.advances_fetch {v : Value} {d : Context}
    (h : (source.fetch name).run.run c = (.ok v, d)) :
    c.Advances d fun g => source.pulls g (c.get? g).isSome := by
  cases source with
  | template w =>
    have hpass : c.pass (PassM.resolve w) = (.ok v, d) := Preparation.run_pass_eq_ok h
    refine ((PassM.resolvesFields_resolve w).advances hpass).congr fun g => ?_
    simp [pulls, Template.referencesOfItems, Template.mem_names]
  | generator n =>
    have hd : (c.next n).2 = d := congrArg Prod.snd h
    rw [← hd]
    refine (Context.Advances.of_next c n).congr fun g => ?_
    simp [pulls]
  | extractor x =>
    have hd : c = d := congrArg Prod.snd h
    rw [← hd]
    exact .of_generators_eq rfl rfl

namespace Fetched

variable {xs : List (String × Source)} {after : Context} {bound : Mapping}

theorem isSome_get? (h : Fetched xs c bound after) (g : String) :
    (after.get? g).isSome = !c.isFree (Entries.keys xs) g := by
  rw [Bool.eq_iff_iff, Context.get?, h.bindings_eq, Entries.get?_isSome_iff,
    Entries.keys_insertAll, Entries.mem_foldl_addKey, h.keys_eq, ← Entries.get?_isSome_iff]
  simp [Context.isFree, Context.get?]

/-- **A walk along sources** pulls what they count. -/
theorem advances (h : Fetched xs c bound after) :
    c.Advances after fun g => Source.pullsAll g (c.get? g).isSome xs := by
  induction h with
  | nil c => exact .of_generators_eq rfl rfl
  | @cons name source rest c d after v bound head _ ih =>
    have hfetch := Source.advances_fetch head
    have hbind : d.Advances (d.bind name v) fun _ => 0 := .of_generators_eq rfl rfl
    refine ((hfetch.trans hbind).trans ih).congr fun g => ?_
    have hsame := source.sameVariables_fetch name c
    rw [head] at hsame
    -- for the rest of the walk the name of the first source hides a generator
    have hhidden : ((d.bind name v).get? g).isSome = ((c.get? g).isSome || name == g) := by
      rw [Context.get?_bind, Context.get?, Context.get?, ← hsame.bindings_eq]
      by_cases hname : name = g <;> simp [hname]
    rw [hhidden, Source.pullsAll, Nat.add_zero]

end Fetched

namespace Test

variable {t : Test} {request : Request}

theorem advances_prepare (h : t.prepare.run.run c = (.ok request, left)) :
    c.Advances left (t.pulls c) := by
  obtain ⟨bound, reached, hfetched, hrequest⟩ := run_prepare_eq_ok h
  have hpass := t.resolvesFields_resolveRequest.advances hrequest
  refine (hfetched.advances.trans hpass).congr fun g => ?_
  have hfree : (c.get? g).isSome = !c.isFree [] g := by simp [Context.isFree]
  have hrequested : (g ∈ Template.referencesOfItems t.requestFields ∧ reached.get? g = none) ↔
      ((Template.names (.array t.requestFields)).contains g &&
        c.isFree (Entries.keys t.sources) g) = true := by
    have hsome := hfetched.isSome_get? g
    have hnone : reached.get? g = none ↔ c.isFree (Entries.keys t.sources) g = true := by
      rw [← Option.isNone_iff_eq_none, ← Option.not_isSome, hsome, Bool.not_not]
    rw [Bool.and_eq_true, List.contains_iff_mem, Template.mem_names, hnone]
    rfl
  rw [if_congr hrequested rfl rfl, pulls, sources, Source.pullsAll_append, Source.pullsAll_append,
    hfree, Source.pullsAll_templates, Source.pullsAll_generators, Source.pullsAll_extractors,
    Nat.add_zero]
  rfl

/-- Nothing that comes after the preparation of a test moves a generator. -/
theorem generators_contextAfter {policy : RetryPolicy} {config : Config} {tr : Transport σ}
    {w : World σ} {after : Context} (h : t.prepare.run.run c = (.ok request, left))
    (hafter : t.contextAfter policy config c tr w = some after) :
    after.generators = left.generators := by
  rcases contextAfter_or_accepts h hafter with rfl | ⟨response, haccepts⟩
  · rfl
  · obtain ⟨bound, hbound⟩ := exists_extractsUpTo_of_accepts haccepts hafter
    rw [hbound.after_eq, Context.generators_bindAll]

/-- **How often a test pulls a generator.**  By the end of a preparation that succeeds every
generator has been pulled as often as `Test.pulls` counts, and in the context that the test leaves,
whatever has become of its request, all of them are where the preparation left them.  It leaves one
unless its exchange breaks off. -/
theorem run_pulls (policy : RetryPolicy) (config : Config) (tr : Transport σ) (w : World σ)
    (h : t.prepare.run.run c = (.ok request, left)) :
    (∀ g s, Entries.get? g c.generators = some s →
      Entries.get? g left.generators = some (s.after c.environment (t.pulls c g))) ∧
    match t.contextAfter policy config c tr w with
    | none => ∃ b, config.replyTo policy tr w request = .error b
    | some after => after.generators = left.generators ∧
        ∀ g s, Entries.get? g c.generators = some s →
          Entries.get? g after.generators = some (s.after c.environment (t.pulls c g)) := by
  have hpulls : ∀ g s, Entries.get? g c.generators = some s →
      Entries.get? g left.generators = some (s.after c.environment (t.pulls c g)) :=
    fun g s hs => (advances_prepare h).stream g s hs
  refine ⟨hpulls, ?_⟩
  cases hafter : t.contextAfter policy config c tr w with
  | none =>
    obtain ⟨_, _, b, hp, hr⟩ := contextAfter_eq_none_iff.mp hafter
    cases h.symm.trans hp
    exact ⟨b, hr⟩
  | some after =>
    have hsame := generators_contextAfter h hafter
    refine ⟨hsame, ?_⟩
    rw [hsame]
    exact hpulls

/-- Four generators that count. -/
def counters : Context where
  environment := []
  bindings := []
  generators := ["k", "m", "n", "p"].map fun g => (g, .sequence 1 1)

/-- A test that uses one generator in several passes, hides another half way, and has a password
without a user. -/
def ordering : Test :=
  { Test.ofUrl "/{{n}}/{{k}}/{{k}}/{{m}}" with
    variableBinds := [("a", .string "{{n}}-{{n}}"), ("x", .string "{{m}}"), ("m", .string "{{m}}"),
      ("y", .string "{{m}}")]
    generatorBinds := [("id", "n")]
    authPassword := some (.string "{{p}}") }

/-- A configuration that has a request sent again twice. -/
def resending : Config where
  retries := 2

/-- However often the request is sent again without an answer, the generators stay where the
preparation left them. -/
theorem run_pulls_ordering :
    let tr := Transport.constant ⟨0, .error (.connection "refused")⟩
    ∃ request left after, ordering.prepare.run.run counters = (.ok request, left) ∧
      ordering.contextAfter {} resending counters tr (World.start ()) = some after ∧
      request.url = "/3/1/1/2" ∧
      ["k", "m", "n", "p"].map (ordering.pulls counters) = [1, 2, 3, 0] ∧
      (["k", "m", "n", "p"].map fun g => Entries.get? g after.generators) =
        [2, 3, 4, 1].map fun next => some (.sequence next 1) := by
  intro tr
  have hurl : (ordering.prepare.run.run counters).1.toOption.map Request.url =
      some "/3/1/1/2" := by decide +kernel
  have hcounts : ["k", "m", "n", "p"].map (ordering.pulls counters) = [1, 2, 3, 0] := by
    decide +kernel
  have hsome : (ordering.contextAfter {} resending counters tr (World.start ())).isSome = true := by
    decide +kernel
  rcases h : ordering.prepare.run.run counters with ⟨f | request, left⟩
  · rw [h] at hurl
    cases hurl
  · rw [h] at hurl
    have hurl : request.url = "/3/1/1/2" := Option.some.inj hurl
    have hpulls := (run_pulls {} resending tr (World.start ()) h).2
    obtain ⟨after, hafter⟩ := Option.isSome_iff_exists.mp hsome
    rw [hafter] at hpulls
    obtain ⟨-, hpulls⟩ := hpulls
    refine ⟨request, left, after, rfl, hafter, hurl, hcounts, ?_⟩
    simp only [List.map_cons, List.map_nil, List.cons.injEq, and_true] at hcounts ⊢
    obtain ⟨hk, hm, hn, hp⟩ := hcounts
    rw [hpulls "k" _ rfl, hpulls "m" _ rfl, hpulls "n" _ rfl, hpulls "p" _ rfl, hk, hm, hn, hp]
    exact ⟨rfl, rfl, rfl, rfl⟩

end Test

end HttpSuite
