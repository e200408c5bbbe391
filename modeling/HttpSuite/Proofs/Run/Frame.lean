import HttpSuite.Proofs.Run.Answering
import HttpSuite.Proofs.Run.Preparation
import HttpSuite.Proofs.Run.Verdict

/-!
# What a test leaves behind in its context

Four kinds of writers bind variables in the course of a test: its templates, generators and
extractors before the request, and the extractors after a response that is accepted.  A test may stop
before, between and within them.  Wherever it stops, what has been bound is what the writers up to
there have bound, and nothing of what comes after.

`Test.run_frame` collects this: no variable is lost, none changes whose name no writer has, and the
context after each way to stop is told exactly.  Only a test whose exchange breaks off leaves no
context behind.
-/

namespace HttpSuite

variable {σ : Type}

/-! ## Extractors in order -/

/-- Extractors have bound their values in order, up to the first one without a value. -/
structure ExtractsUpTo (body : List UInt8) (headers : Headers) (xs : List (String × Extractor))
    (c : Context) (bound : Mapping) (after : Context) : Prop where
  after_eq : after = c.bindAll bound
  /-- Each value is that of the extractor at its place, in the context with the values before it. -/
  extracted : ∀ (i : Nat) (h : i < bound.length), ∃ x, xs[i]? = some (bound[i].1, x) ∧
    x.extract body headers (c.bindAll (bound.take i)) = .ok bound[i].2
  /-- The extractor that comes next, if there is one, has no value. -/
  stopped : ∀ name x, xs[bound.length]? = some (name, x) → ∃ e, x.extract body headers after = .error e
  others : ∀ name, name ∉ Entries.keys bound → after.get? name = c.get? name

namespace ExtractsUpTo

variable {body : List UInt8} {headers : Headers} {xs : List (String × Extractor)}
  {c after : Context} {bound : Mapping}

/-- Only names of extractors are bound. -/
theorem mem_keys (h : ExtractsUpTo body headers xs c bound after) {name : String}
    (hname : name ∈ Entries.keys bound) : name ∈ Entries.keys xs := by
  obtain ⟨e, he, rfl⟩ := List.mem_map.mp hname
  obtain ⟨i, hi, rfl⟩ := List.getElem_of_mem he
  obtain ⟨x, hx, -⟩ := h.extracted i hi
  exact List.mem_map_of_mem (List.mem_of_getElem? hx)

/-- Extractors that have a value bind it, and nothing is bound where the next one has none. -/
theorem of_extracts {before rest : List (String × Extractor)}
    (h : Extracts body headers before c after)
    (hstop : ∀ name x, rest.head? = some (name, x) → ∃ e, x.extract body headers after = .error e) :
    ∃ bound, ExtractsUpTo body headers (before ++ rest) c bound after := by
  induction h with
  | nil c =>
    refine ⟨[], rfl, fun i hi => absurd hi (Nat.not_lt_zero i), fun name x hx => ?_,
      fun _ _ => rfl⟩
    exact hstop name x (by simpa [List.head?_eq_getElem?] using hx)
  | @cons name x before c d v head tail ih =>
    obtain ⟨bound, hbound⟩ := ih hstop
    refine ⟨(name, v) :: bound, hbound.after_eq, fun i hi => ?_,
      hbound.stopped, fun k hk => ?_⟩
    · cases i with
      | zero => exact ⟨x, rfl, head⟩
      | succ i => exact hbound.extracted i (Nat.lt_of_succ_lt_succ hi)
    · have hk' : k ≠ name ∧ k ∉ Entries.keys bound := by
        rwa [Entries.keys, List.map_cons, List.mem_cons, not_or] at hk
      rw [hbound.others k hk'.2, Context.get?_bind, if_neg hk'.1.symm]

end ExtractsUpTo

/-- What binding extracted values does, whether it comes through or not. -/
theorem Preparation.exists_extractsUpTo {body : List UInt8} {headers : Headers}
    {xs : List (String × Extractor)} {c after : Context} {outcome : Except Failure Unit}
    (h : (bindExtracted body headers xs).run.run c = (outcome, after)) :
    ∃ bound, ExtractsUpTo body headers xs c bound after := by
  cases outcome with
  | ok u =>
    rw [← List.append_nil xs]
    exact ExtractsUpTo.of_extracts (run_bindExtracted_eq_ok.mp h) fun _ _ hnone => nomatch hnone
  | error f =>
    obtain ⟨before, name, x, rest, e, rfl, hbefore, hmissing, -⟩ := run_bindExtracted_eq_error h
    refine ExtractsUpTo.of_extracts hbefore fun name' x' hnext => ?_
    cases hnext
    exact ⟨e, hmissing⟩

/-! ## The context after a test -/

namespace Test

variable (t : Test) (policy : RetryPolicy) (config : Config) (context : Context)
  (tr : Transport σ) (w : World σ)

/-- A response has come, its status is as expected and every validator accepts it in the context
that the preparation `left`. -/
structure Accepts (request : Request) (left : Context) (response : Response) : Prop where
  prepared : t.prepare.run.run context = (.ok request, left)
  answered : config.replyTo policy tr w request = .ok (.ok response)
  expected : t.expectsStatus response.status = true
  accepted : ∀ v ∈ t.validators, v.validate response.body response.headers left = .ok ()

/-- The context after the test has run, unless its exchange breaks off. -/
def contextAfter : Option Context := ((t.run policy config context).run tr w).1.toOption.map (·.2)

variable {t policy config context tr w} {request : Request} {left after : Context}
  {response : Response}

theorem keys_sources (t : Test) : Entries.keys t.sources =
    Entries.keys t.variableBinds ++ (Entries.keys t.generatorBinds ++
      Entries.keys t.extractorsBefore) := by
  simp only [Entries.keys, sources, List.map_append, List.map_map]
  rfl

theorem contextAfter_of_error {f : Failure}
    (h : t.prepare.run.run context = (.error f, left)) :
    t.contextAfter policy config context tr w = some left := by
  rw [contextAfter, t.run_of_error policy config context tr w h]
  rfl

theorem contextAfter_of_ok (h : t.prepare.run.run context = (.ok request, left)) :
    t.contextAfter policy config context tr w =
      (config.replyTo policy tr w request).toOption.map fun reply =>
        (t.judge config request reply left).context := by
  rw [contextAfter, t.judgement_of_ok policy config context tr w h]
  cases config.replyTo policy tr w request <;> rfl

/-- A test leaves no context only where its request was prepared and its exchange breaks off. -/
theorem contextAfter_eq_none_iff : t.contextAfter policy config context tr w = none ↔
    ∃ request left b, t.prepare.run.run context = (.ok request, left) ∧
      config.replyTo policy tr w request = .error b := by
  constructor
  · intro h
    rcases hrun : ((t.run policy config context).run tr w).1 with b | r
    · obtain ⟨request, left, hp, hr⟩ := (t.run_eq_error_iff policy config context tr w).mp hrun
      exact ⟨request, left, b, hp, hr⟩
    · rw [contextAfter, hrun] at h
      cases h
  · rintro ⟨request, left, b, hp, hr⟩
    rw [contextAfter_of_ok hp, hr]
    rfl

theorem contextAfter_of_transportError {e : TransportError}
    (h : t.prepare.run.run context = (.ok request, left))
    (hr : config.replyTo policy tr w request = .ok (.error e)) :
    t.contextAfter policy config context tr w = some left := by
  rw [contextAfter_of_ok h, hr]
  rfl

theorem contextAfter_of_response (h : t.prepare.run.run context = (.ok request, left))
    (hr : config.replyTo policy tr w request = .ok (.ok response)) :
    t.contextAfter policy config context tr w =
      some (t.judge config request (.ok response) left).context := by
  rw [contextAfter_of_ok h, hr]
  rfl

/-- Extractors run only after a response without rejections. -/
theorem context_judge_of_rejections (h : t.rejections response left ≠ []) :
    (t.judge config request (.ok response) left).context = left := by
  rw [judge, check]
  cases hr : t.rejections response left with
  | nil => exact absurd hr h
  | cons f rest => rfl

theorem rejections_of_wrongStatus (h : t.expectsStatus response.status = false) :
    t.rejections response left ≠ [] := by
  rw [rejections, h, if_neg Bool.false_ne_true]
  exact List.cons_ne_nil _ _

theorem rejections_of_rejects {v : Validator} (hv : v ∈ t.validators)
    (h : v.rejects response left = true) : t.rejections response left ≠ [] := by
  by_cases he : t.expectsStatus response.status = true
  · rw [rejections, he, if_pos rfl]
    intro hnil
    have hnone := rejection_eq_none_iff.mp (List.filterMap_eq_nil_iff.mp hnil v hv)
    rw [Validator.rejects, hnone] at h
    cases h
  · exact rejections_of_wrongStatus (Bool.eq_false_iff.mpr he)

theorem exists_extractsUpTo_of_accepts (h : t.Accepts policy config context tr w request left
    response) (hafter : t.contextAfter policy config context tr w = some after) :
    ∃ bound, ExtractsUpTo response.body response.headers t.extractorsAfter left bound after := by
  rcases hx : (Preparation.bindExtracted response.body response.headers t.extractorsAfter).run.run
    left with ⟨outcome, last⟩
  have hcontext : t.contextAfter policy config context tr w = some last := by
    rw [contextAfter_of_response h.prepared h.answered,
      t.judge_of_accepted config h.expected h.accepted hx]
    cases outcome <;> rfl
  rw [Option.some.inj (hafter.symm.trans hcontext)]
  exact Preparation.exists_extractsUpTo hx

/-- Unless a response is accepted, nothing is bound after the preparation. -/
theorem contextAfter_or_accepts (h : t.prepare.run.run context = (.ok request, left))
    (hafter : t.contextAfter policy config context tr w = some after) :
    after = left ∨ ∃ response, t.Accepts policy config context tr w request left response := by
  cases hr : config.replyTo policy tr w request with
  | error b =>
    rw [contextAfter_of_ok h, hr] at hafter
    cases hafter
  | ok reply =>
    cases reply with
    | error e =>
      rw [contextAfter_of_transportError h hr] at hafter
      exact .inl (Option.some.inj hafter).symm
    | ok response =>
      by_cases hnil : t.rejections response left = []
      · refine .inr ⟨response, h, hr, ?_, fun v hv => ?_⟩
        · by_contra he
          exact rejections_of_wrongStatus (Bool.eq_false_iff.mpr he) hnil
        · by_contra hne
          refine rejections_of_rejects hv ?_ hnil
          rw [Validator.rejects]
          cases hval : v.validate response.body response.headers left with
          | ok u => exact absurd hval hne
          | error f => rfl
      · rw [contextAfter_of_response h hr, context_judge_of_rejections hnil] at hafter
        exact .inl (Option.some.inj hafter).symm

/-- Whatever becomes of a test, its context is the one before it with some names bound, and they are
names of its writers. -/
theorem exists_bound (hafter : t.contextAfter policy config context tr w = some after) :
    ∃ bound, after.bindings = Entries.insertAll context.bindings bound ∧
      ∀ name ∈ Entries.keys bound, name ∈ Entries.keys t.sources ∨
        (name ∈ Entries.keys t.extractorsAfter ∧
          ∃ request left response, t.Accepts policy config context tr w request left response) := by
  rcases hp : t.prepare.run.run context with ⟨f | request, left⟩
  · obtain ⟨before, rest, bound, reached, hsplit, hfetched, hfails⟩ := run_prepare_eq_error hp
    rw [contextAfter_of_error hp] at hafter
    refine ⟨bound, ?_, fun name hname => .inl ?_⟩
    · rw [← Option.some.inj hafter, ← hfails.sameVariables.bindings_eq, hfetched.bindings_eq]
    · rw [hfetched.keys_eq] at hname
      rw [hsplit, Entries.keys, List.map_append]
      exact List.mem_append_left _ hname
  · obtain ⟨bound, reached, hfetched, hrequest⟩ := run_prepare_eq_ok hp
    have hleft : left.bindings = Entries.insertAll context.bindings bound := by
      have hsame := reached.sameVariables_pass t.keepsVariables_resolveRequest
      rw [hrequest] at hsame
      rw [← hsame.bindings_eq, hfetched.bindings_eq]
    have hsources : ∀ name ∈ Entries.keys bound, name ∈ Entries.keys t.sources := by
      rw [hfetched.keys_eq]
      exact fun _ hname => hname
    rcases contextAfter_or_accepts hp hafter with rfl | ⟨response, haccepts⟩
    · exact ⟨bound, hleft, fun name hname => .inl (hsources name hname)⟩
    · -- what the extractors bind comes on top of what the preparation has bound
      obtain ⟨more, hmore⟩ := exists_extractsUpTo_of_accepts haccepts hafter
      refine ⟨bound ++ more, ?_, fun name hname => ?_⟩
      · rw [hmore.after_eq, Context.bindings_bindAll, hleft, Entries.insertAll, Entries.insertAll,
          Entries.insertAll, List.foldl_append]
      · rw [Entries.keys, List.map_append, List.mem_append] at hname
        rcases hname with hname | hname
        · exact .inl (hsources name hname)
        · exact .inr ⟨hmore.mem_keys hname, request, left, response, haccepts⟩

/-- **What a test may change.**  It loses no variable, and a variable changes only if its name is
one that the test binds before the request or, where a response was accepted, after it.  A
preparation that fails has bound the names of its sources before the one that failed, or of all of
them if it was the request that failed.  A test whose request gets no response, or none that is
accepted, leaves the context of its preparation.  After a response that is accepted the extractors
have bound their values in order, up to the first one without a value.  There is no context only
where the request was prepared and its exchange breaks off. -/
theorem run_frame (t : Test) (policy : RetryPolicy) (config : Config) (context : Context)
    (tr : Transport σ) (w : World σ) :
    match t.contextAfter policy config context tr w with
    | none => ∃ request left b, t.prepare.run.run context = (.ok request, left) ∧
        config.replyTo policy tr w request = .error b
    | some after =>
      Entries.keys context.bindings <+: Entries.keys after.bindings ∧
      (∀ name, after.get? name ≠ context.get? name →
        name ∈ Entries.keys t.variableBinds ∨ name ∈ Entries.keys t.generatorBinds ∨
          name ∈ Entries.keys t.extractorsBefore ∨ (name ∈ Entries.keys t.extractorsAfter ∧
            ∃ request left response, t.Accepts policy config context tr w request left response)) ∧
      (∀ f left, t.prepare.run.run context = (.error f, left) → after = left ∧
        ∃ before rest bound reached, t.sources = before ++ rest ∧
          Fetched before context bound reached ∧ t.FailsAt f left reached rest ∧
          Entries.keys bound = Entries.keys before ∧
          left.bindings = Entries.insertAll context.bindings bound) ∧
      ∀ request left, t.prepare.run.run context = (.ok request, left) →
        (∀ e, config.replyTo policy tr w request = .ok (.error e) → after = left) ∧
        ∀ response, config.replyTo policy tr w request = .ok (.ok response) →
          (t.expectsStatus response.status = false → after = left) ∧
          ((∃ v ∈ t.validators, v.rejects response left = true) → after = left) ∧
          (t.Accepts policy config context tr w request left response →
            ∃ bound, ExtractsUpTo response.body response.headers t.extractorsAfter left bound
              after) := by
  cases hafter : t.contextAfter policy config context tr w with
  | none => exact contextAfter_eq_none_iff.mp hafter
  | some after =>
    obtain ⟨bound, hbindings, hnames⟩ := exists_bound hafter
    refine ⟨?_, fun name hne => ?_, fun f left hp => ⟨?_, ?_⟩,
      fun request left hp => ⟨fun e hr => ?_, fun response hr => ⟨fun he => ?_, ?_,
        fun haccepts => exists_extractsUpTo_of_accepts haccepts hafter⟩⟩⟩
    · rw [hbindings]
      exact Entries.keys_prefix_insertAll _ _
    · by_contra hnot
      refine hne ?_
      rw [Context.get?, hbindings]
      refine Entries.get?_insertAll_of_notMem (fun hname => hnot ?_) _
      simpa only [keys_sources, List.mem_append, or_assoc] using hnames name hname
    · exact Option.some.inj (hafter.symm.trans (contextAfter_of_error hp))
    · obtain ⟨before, rest, bound, reached, hsplit, hfetched, hfails⟩ := run_prepare_eq_error hp
      exact ⟨before, rest, bound, reached, hsplit, hfetched, hfails, hfetched.keys_eq,
        hfails.sameVariables.bindings_eq ▸ hfetched.bindings_eq⟩
    · exact Option.some.inj (hafter.symm.trans (contextAfter_of_transportError hp hr))
    · rw [contextAfter_of_response hp hr,
        context_judge_of_rejections (rejections_of_wrongStatus he)] at hafter
      exact (Option.some.inj hafter).symm
    · rintro ⟨v, hv, hrejects⟩
      rw [contextAfter_of_response hp hr,
        context_judge_of_rejections (rejections_of_rejects hv hrejects)] at hafter
      exact (Option.some.inj hafter).symm

/-- A test that binds a variable before its request, and whose second extractor after the response
has no value. -/
def gathering : Test :=
  { Test.ofUrl "/" with
    variableBinds := [("user", .string "ada")]
    extractorsAfter := [("greeting", .constant (.string "hi {{user}}")), ("key", .environment "KEY"),
      ("text", .rawBody)] }

/-- Two variables of the names of extractors. -/
def gathered : Context where
  environment := []
  bindings := [("text", .int 1), ("greeting", .null)]
  generators := []

/-- The extractor before the failing one has bound its value, which takes the place of the former
one; the extractor after it has bound nothing. -/
theorem run_frame_gathering :
    let response : Response := ⟨200, [], []⟩
    let tr := Transport.constant ⟨0, .ok response⟩
    ∃ after, gathering.contextAfter {} {} gathered tr (World.start ()) = some after ∧
      Entries.keys gathered.bindings <+: Entries.keys after.bindings ∧
      after.bindings.map (fun e => (e.1, e.2.toText)) =
        [("text", "1"), ("greeting", "\"hi ada\""), ("user", "\"ada\"")] ∧
      ∃ request left bound,
        gathering.Accepts {} {} gathered tr (World.start ()) request left response ∧
        ExtractsUpTo response.body response.headers gathering.extractorsAfter left bound after := by
  intro response tr
  have htexts : (gathering.contextAfter {} {} gathered tr (World.start ())).map
      (fun after => after.bindings.map fun e => (e.1, e.2.toText)) =
      some [("text", "1"), ("greeting", "\"hi ada\""), ("user", "\"ada\"")] := by decide +kernel
  have hprepared : (gathering.prepare.run.run gathered).1.toOption.isSome = true := by decide +kernel
  have hframe := gathering.run_frame {} {} gathered tr (World.start ())
  cases hafter : gathering.contextAfter {} {} gathered tr (World.start ()) with
  | none =>
    rw [hafter] at htexts
    cases htexts
  | some after =>
    rw [hafter] at htexts hframe
    obtain ⟨hkeys, -, -, hok⟩ := hframe
    rcases h : gathering.prepare.run.run gathered with ⟨f | request, left⟩
    · rw [h] at hprepared
      cases hprepared
    · have haccepts : gathering.Accepts {} {} gathered tr (World.start ()) request left response :=
        { prepared := h
          answered := congrArg Prod.fst (Exchange.attempts_of_ended rfl _)
          expected := by decide
          accepted := fun v hv => nomatch hv }
      obtain ⟨bound, hbound⟩ := ((hok request left h).2 response haccepts.answered).2.2 haccepts
      exact ⟨after, rfl, hkeys, Option.some.inj htexts, request, left, bound, haccepts, hbound⟩

end Test

end HttpSuite
