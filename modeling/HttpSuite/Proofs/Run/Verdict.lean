import HttpSuite.Proofs.Failures
import HttpSuite.Proofs.Run.Course
import HttpSuite.Run.Runner
import Mathlib.Data.List.Forall2

/-!
# The verdict on a test

A test binds what it binds and resolves its request, sends it, looks at the status, asks every
validator and runs the extractors that follow.  It passes when all of that goes well, and otherwise
its failures tell at which `Stage` it stopped: they have the shape of that stage and of no other
one.

* `TestResult.HasShape` is about the result alone: how many failures, of which kinds, and whether
  there is a status next to them.
* `Test.StopsAt` is about the test: what went wrong at the stage, what was left undone after it,
  and that the failures are those, none missing and in order.

`Test.run_verdict` puts the two together, for every transport and every state of the world.  A test
has no result at all only where its exchange breaks off.
-/

namespace HttpSuite

variable {σ : Type}

/-! ## Stages -/

/-- Where a test can stop. -/
inductive Stage where
  | preparation
  | dispatch
  | status
  | validation
  | extraction
deriving DecidableEq

namespace Stage

/-- Whether a response has come when a test stops at the stage. -/
def hasResponse : Stage → Bool
  | preparation | dispatch => false
  | status | validation | extraction => true

/-- The kinds of the failures of a test that stops at the stage. -/
def kinds : Stage → List FailureKind
  | preparation => [.testException, .extractorException]
  | dispatch => [.transport, .timeout]
  | status => [.invalidResponse]
  | validation => [.validatorFailed, .validatorException]
  | extraction => [.extractorException]

/-- Only extractors run at two stages, and of these one is before the response. -/
theorem eq_of_kind_mem {s s' : Stage} {k : FailureKind} (h : s.hasResponse = s'.hasResponse)
    (hk : k ∈ s.kinds) (hk' : k ∈ s'.kinds) : s = s' := by
  cases s <;> cases s' <;> simp_all [hasResponse, kinds] <;>
    (rcases hk with rfl | rfl <;> simp at hk')

end Stage

/-- A result looks like that of a test that stopped at a stage. -/
structure TestResult.HasShape (r : TestResult) (stage : Stage) : Prop where
  /-- Validators may fail side by side, anything else fails alone. -/
  count : if stage = .validation then r.failures ≠ [] else r.failures.length = 1
  kinds : ∀ f ∈ r.failures, f.kind ∈ stage.kinds
  code : r.code.isSome = stage.hasResponse

namespace TestResult.HasShape

variable {r : TestResult} {stage stage' : Stage}

theorem failures_ne_nil (h : r.HasShape stage) : r.failures ≠ [] := by
  have hcount := h.count
  split at hcount
  · exact hcount
  · intro hnil
    rw [hnil] at hcount
    exact absurd hcount (by simp)

/-- No result has two shapes. -/
theorem unique (h : r.HasShape stage) (h' : r.HasShape stage') : stage' = stage := by
  obtain ⟨f, hf⟩ := List.exists_mem_of_ne_nil _ h.failures_ne_nil
  exact Stage.eq_of_kind_mem (h'.code.symm.trans h.code) (h'.kinds f hf) (h.kinds f hf)

end TestResult.HasShape

/-! ## What passing and stopping mean -/

/-- The reply to a request that is sent under a configuration, or why there is none. -/
def Config.replyTo (config : Config) (policy : RetryPolicy) (tr : Transport σ) (w : World σ)
    (request : Request) : Except Break Reply :=
  ((config.exchange policy request).run tr w).1

/-- Whether a validator does not accept a response. -/
def Validator.rejects (response : Response) (context : Context) (v : Validator) : Bool :=
  (v.validate response.body response.headers context).toOption.isNone

namespace Test

variable (t : Test) (policy : RetryPolicy) (config : Config) (context : Context)
  (tr : Transport σ) (w : World σ)

/-- Everything goes well with a test: it has a request and a context `left` by its preparation, a
response, and a context `after` its extractors. -/
structure Passes (request : Request) (left : Context) (response : Response) (after : Context) :
    Prop where
  prepared : t.prepare.run.run context = (.ok request, left)
  answered : config.replyTo policy tr w request = .ok (.ok response)
  expected : t.expectsStatus response.status = true
  accepted : ∀ v ∈ t.validators, v.validate response.body response.headers left = .ok ()
  extracted : Extracts response.body response.headers t.extractorsAfter left after

/-- A test stops at a stage, with a result, a context and a world after it. -/
inductive StopsAt : Stage → TestResult → Context → World σ → Prop where
  /-- Nothing was sent. -/
  | preparation {f : Failure} {left : Context} {u : World σ}
      (prepared : t.prepare.run.run context = (.error f, left)) (sends : u.sends = w.sends) :
      StopsAt .preparation (.failed t t.url f) left u
  | dispatch {request : Request} {left : Context} {e : TransportError} {u : World σ}
      (prepared : t.prepare.run.run context = (.ok request, left))
      (answered : config.replyTo policy tr w request = .ok (.error e)) :
      StopsAt .dispatch (.failed t request.url (transportFailure e)) left u
  /-- No validator was asked: others in their place would have changed nothing. -/
  | status {request : Request} {left : Context} {response : Response} {r : TestResult}
      {u : World σ}
      (prepared : t.prepare.run.run context = (.ok request, left))
      (answered : config.replyTo policy tr w request = .ok (.ok response))
      (expected : t.expectsStatus response.status = false)
      (result : r = ⟨t.name, request.url, t.group, false, some response.status, response.headers,
        [t.wrongStatus response.status]⟩)
      (unasked : ∀ validators, (Test.run policy { t with validators := validators } config
        context).run tr w = (.ok (r, left), u)) :
      StopsAt .status r left u
  /-- Every validator was asked, and those that rejected the response did so one by one. -/
  | validation {request : Request} {left : Context} {response : Response}
      {failures : List Failure} {u : World σ}
      (prepared : t.prepare.run.run context = (.ok request, left))
      (answered : config.replyTo policy tr w request = .ok (.ok response))
      (expected : t.expectsStatus response.status = true)
      (rejected : ∃ v ∈ t.validators, v.rejects response left = true)
      (failed : List.Forall₂
        (fun v f => v.validate response.body response.headers left = .error f)
        (t.validators.filter (Validator.rejects response left)) failures) :
      StopsAt .validation ⟨t.name, request.url, t.group, false, some response.status,
        response.headers, failures⟩ left u
  /-- The extractors before the one without a value left their values behind. -/
  | extraction {request : Request} {left : Context} {response : Response}
      {before rest : List (String × Extractor)} {name : String} {x : Extractor}
      {e : ExtractError} {after : Context} {u : World σ}
      (prepared : t.prepare.run.run context = (.ok request, left))
      (answered : config.replyTo policy tr w request = .ok (.ok response))
      (expected : t.expectsStatus response.status = true)
      (accepted : ∀ v ∈ t.validators, v.validate response.body response.headers left = .ok ())
      (extractors : t.extractorsAfter = before ++ (name, x) :: rest)
      (extracted : Extracts response.body response.headers before left after)
      (missing : x.extract response.body response.headers after = .error e) :
      StopsAt .extraction ⟨t.name, request.url, t.group, false, some response.status,
        response.headers, [Preparation.notExtracted name e]⟩ after u

/-! ## Running a test -/

/-- The world when the request of a test goes out: what is shown of it has been noted. -/
def prompted (request : Request) : World σ :=
  if config.interactive then
    w.noteAll ((t.requestLines request).map .line ++ [.pause "Press ENTER when ready"])
  else w

theorem transport_prompted (request : Request) :
    (t.prompted config w request).transport = w.transport := by
  unfold prompted
  split
  · exact World.transport_noteAll w _
  · rfl

/-- A run of a test without a request. -/
theorem run_of_error {f : Failure} {left : Context}
    (h : t.prepare.run.run context = (.error f, left)) :
    (t.run policy config context).run tr w =
      (.ok (.failed t t.url f, left), w.noteAll (TestResult.failed t t.url f).notes) := by
  rw [run, h]
  simp only [Program.run_bind, Program.run_notes, Program.run_pure, Ran.andThen_ok]

/-- A run of a test with a request: the reply is judged in the context that the preparation
left. -/
theorem run_of_ok {request : Request} {left : Context}
    (h : t.prepare.run.run context = (.ok request, left)) :
    (t.run policy config context).run tr w =
      ((config.exchange policy request).run tr (t.prompted config w request)).andThen
        fun reply u =>
          let j := t.judge config request reply left
          (.ok (j.result, j.context), u.noteAll (j.lines.map .line ++ j.result.notes)) := by
  rw [run, h]
  cases hi : config.interactive <;>
    simp only [prompted, hi, if_true, Bool.false_eq_true, if_false, Program.run_bind,
      Program.run_notes, Program.run_perform, Program.run_pure, Ran.andThen_ok]

theorem reply_prompted (request : Request) :
    ((config.exchange policy request).run tr (t.prompted config w request)).1 =
      config.replyTo policy tr w request :=
  (config.exchange policy request).run_reply_eq (t.transport_prompted config w request)

theorem judgement_of_ok {request : Request} {left : Context}
    (h : t.prepare.run.run context = (.ok request, left)) :
    ((t.run policy config context).run tr w).1 =
      (config.replyTo policy tr w request).map fun reply =>
        ((t.judge config request reply left).result,
          (t.judge config request reply left).context) := by
  rw [t.run_of_ok policy config context tr w h, ← t.reply_prompted policy config tr w request]
  rcases (config.exchange policy request).run tr (t.prompted config w request) with ⟨_ | _, _⟩ <;>
    rfl

/-! ## Judging a reply -/

variable {request : Request} {left : Context} {response : Response}

theorem rejection_eq_none_iff {v : Validator} :
    rejection response left v = none ↔
      v.validate response.body response.headers left = .ok () := by
  unfold rejection
  split <;> simp_all

theorem forall₂_rejections (validators : List Validator) :
    List.Forall₂ (fun v f => v.validate response.body response.headers left = .error f)
      (validators.filter (Validator.rejects response left))
      (validators.filterMap (rejection response left)) := by
  induction validators with
  | nil => exact .nil
  | cons v rest ih =>
    rw [List.filter_cons, List.filterMap_cons]
    cases hv : v.validate response.body response.headers left with
    | ok a =>
      have hnone : rejection response left v = none := rejection_eq_none_iff.mpr hv
      have hrejects : v.rejects response left = false := by
        rw [Validator.rejects, hv]
        rfl
      rw [hnone, hrejects]
      exact ih
    | error f =>
      have hsome : rejection response left v = some f := by
        rw [rejection, hv]
      have hrejects : v.rejects response left = true := by
        rw [Validator.rejects, hv]
        rfl
      rw [hsome, hrejects]
      exact .cons hv ih

theorem judge_of_wrongStatus (h : t.expectsStatus response.status = false) :
    t.judge config request (.ok response) left =
      ⟨⟨t.name, request.url, t.group, false, some response.status, response.headers,
        [t.wrongStatus response.status]⟩, left, shown config response false⟩ := by
  have hr : t.rejections response left = [t.wrongStatus response.status] := by
    rw [rejections, h, if_neg Bool.false_ne_true]
  rw [judge, check, hr]
  rfl

theorem judge_of_rejections (h : t.expectsStatus response.status = true)
    (hne : t.validators.filterMap (rejection response left) ≠ []) :
    t.judge config request (.ok response) left =
      ⟨⟨t.name, request.url, t.group, false, some response.status, response.headers,
        t.validators.filterMap (rejection response left)⟩, left,
        shown config response false⟩ := by
  have hr : t.rejections response left = t.validators.filterMap (rejection response left) := by
    rw [rejections, h, if_pos rfl]
  rw [judge, check, hr]
  cases hf : t.validators.filterMap (rejection response left) with
  | nil => exact absurd hf hne
  | cons f rest => rfl

theorem rejections_eq_nil (h : t.expectsStatus response.status = true)
    (ha : ∀ v ∈ t.validators, v.validate response.body response.headers left = .ok ()) :
    t.rejections response left = [] := by
  rw [rejections, h, if_pos rfl, List.filterMap_eq_nil_iff]
  exact fun v hv => rejection_eq_none_iff.mpr (ha v hv)

theorem judge_of_accepted {after : Context} {f : Except Failure Unit}
    (h : t.expectsStatus response.status = true)
    (ha : ∀ v ∈ t.validators, v.validate response.body response.headers left = .ok ())
    (hx : (Preparation.bindExtracted response.body response.headers t.extractorsAfter).run.run
      left = (f, after)) :
    t.judge config request (.ok response) left =
      match f with
      | .ok _ => ⟨⟨t.name, request.url, t.group, true, some response.status, response.headers,
          []⟩, after, shown config response true⟩
      | .error f => ⟨⟨t.name, request.url, t.group, false, some response.status,
          response.headers, [f]⟩, after, shown config response false⟩ := by
  rw [judge, check, t.rejections_eq_nil h ha]
  simp only [hx]
  cases f <;> rfl

/-- Other validators would change nothing where the status is not as expected. -/
theorem run_of_wrongStatus (hp : t.prepare.run.run context = (.ok request, left))
    (hr : config.replyTo policy tr w request = .ok (.ok response))
    (he : t.expectsStatus response.status = false) (validators : List Validator) :
    (Test.run policy { t with validators := validators } config context).run tr w =
      (t.run policy config context).run tr w := by
  have hp' : ({ t with validators := validators } : Test).prepare.run.run context =
      (.ok request, left) := hp
  have hj : t.judge config request (.ok response) left = _ := t.judge_of_wrongStatus config he
  have hj' : ({ t with validators := validators } : Test).judge config request (.ok response)
      left = _ := judge_of_wrongStatus _ config he
  have hreply := (t.reply_prompted policy config tr w request).trans hr
  have hprompted : ({ t with validators := validators } : Test).prompted config w request =
      t.prompted config w request := rfl
  rw [run_of_ok _ policy config context tr w hp', t.run_of_ok policy config context tr w hp,
    hprompted]
  rcases hx : (config.exchange policy request).run tr (t.prompted config w request) with ⟨reply, u⟩
  rw [hx] at hreply
  have hreply : reply = .ok (.ok response) := hreply
  rw [hreply, Ran.andThen_ok, Ran.andThen_ok, hj, hj']
  rfl

/-! ## The verdict -/

variable {stage : Stage} {r : TestResult} {after : Context} {u : World σ}

/-- What a test that passes leaves behind. -/
theorem Passes.run_eq (h : t.Passes policy config context tr w request left response after) :
    ((t.run policy config context).run tr w).1 =
      .ok (⟨t.name, request.url, t.group, true, some response.status, response.headers, []⟩,
        after) := by
  have hx := Preparation.run_bindExtracted_eq_ok.mpr h.extracted
  rw [t.judgement_of_ok policy config context tr w h.prepared, h.answered, Except.map,
    t.judge_of_accepted config h.expected h.accepted hx]

/-- A test whose request was prepared and answered passes or stops at a later stage. -/
theorem passes_or_stopsAt_of_answered
    (h : (t.run policy config context).run tr w = (.ok (r, after), u))
    (hp : t.prepare.run.run context = (.ok request, left))
    (hr : config.replyTo policy tr w request = .ok (.ok response)) :
    t.Passes policy config context tr w request left response after ∨
      ∃ stage, t.StopsAt policy config context tr w stage r after u := by
  have hrun := t.judgement_of_ok policy config context tr w hp
  rw [h, hr, Except.map, Except.ok.injEq] at hrun
  by_cases he : t.expectsStatus response.status = true
  · by_cases ha : ∀ v ∈ t.validators, v.validate response.body response.headers left = .ok ()
    · rcases hx : (Preparation.bindExtracted response.body response.headers
        t.extractorsAfter).run.run left with ⟨f | _, last⟩
      · obtain ⟨before, name, x, rest, e, hxs, hbefore, hmissing, rfl⟩ :=
          Preparation.run_bindExtracted_eq_error hx
        rw [t.judge_of_accepted config he ha hx] at hrun
        obtain ⟨rfl, rfl⟩ := Prod.mk.inj hrun
        exact .inr ⟨.extraction, .extraction hp hr he ha hxs hbefore hmissing⟩
      · rw [t.judge_of_accepted config he ha hx] at hrun
        obtain ⟨rfl, rfl⟩ := Prod.mk.inj hrun
        exact .inl ⟨hp, hr, he, ha, Preparation.run_bindExtracted_eq_ok.mp hx⟩
    · refine .inr ⟨.validation, ?_⟩
      push Not at ha
      obtain ⟨v, hv, hne⟩ := ha
      have hsome : rejection response left v ≠ none := fun hn => hne (rejection_eq_none_iff.mp hn)
      have hfailures : t.validators.filterMap (rejection response left) ≠ [] := by
        intro hnil
        exact hsome (List.filterMap_eq_nil_iff.mp hnil v hv)
      rw [t.judge_of_rejections config he hfailures] at hrun
      obtain ⟨rfl, rfl⟩ := Prod.mk.inj hrun
      refine .validation hp hr he ⟨v, hv, ?_⟩ (forall₂_rejections t.validators)
      rw [Validator.rejects]
      cases hval : v.validate response.body response.headers after with
      | ok _ => exact absurd hval hne
      | error f => rfl
  · refine .inr ⟨.status, ?_⟩
    rw [Bool.not_eq_true] at he
    rw [t.judge_of_wrongStatus config he] at hrun
    have hunasked := t.run_of_wrongStatus policy config context tr w hp hr he
    obtain ⟨rfl, rfl⟩ := Prod.mk.inj hrun
    exact .status hp hr he rfl fun validators => (hunasked validators).trans h

/-- Every test that has a result passes or stops at a stage. -/
theorem passes_or_stopsAt (h : (t.run policy config context).run tr w = (.ok (r, after), u)) :
    (∃ request left response, t.Passes policy config context tr w request left response after) ∨
      ∃ stage, t.StopsAt policy config context tr w stage r after u := by
  rcases hp : t.prepare.run.run context with ⟨f | request, left⟩
  · rw [t.run_of_error policy config context tr w hp] at h
    cases h
    exact .inr ⟨.preparation, .preparation hp (w.sends_noteAll _)⟩
  · have hrun := t.judgement_of_ok policy config context tr w hp
    rw [h] at hrun
    cases hr : config.replyTo policy tr w request with
    | error b =>
      rw [hr] at hrun
      cases hrun
    | ok reply =>
      cases reply with
      | error e =>
        rw [hr, Except.map, Except.ok.injEq] at hrun
        obtain ⟨rfl, rfl⟩ := Prod.mk.inj hrun
        exact .inr ⟨.dispatch, .dispatch hp hr⟩
      | ok response =>
        rcases t.passes_or_stopsAt_of_answered policy config context tr w h hp hr with h | h
        · exact .inl ⟨request, left, response, h⟩
        · exact .inr h

/-- **Where a test has no result**, its request was prepared and its exchange breaks off. -/
theorem run_eq_error_iff {b : Break} :
    ((t.run policy config context).run tr w).1 = .error b ↔ ∃ request left,
      t.prepare.run.run context = (.ok request, left) ∧
        config.replyTo policy tr w request = .error b := by
  rcases hp : t.prepare.run.run context with ⟨f | request, left⟩
  · rw [t.run_of_error policy config context tr w hp]
    constructor
    · intro h
      cases h
    · rintro ⟨_, _, h, -⟩
      cases h
  · rw [t.judgement_of_ok policy config context tr w hp]
    constructor
    · intro h
      refine ⟨request, left, rfl, ?_⟩
      cases hr : config.replyTo policy tr w request with
      | error b' =>
        rw [hr] at h
        cases h
        rfl
      | ok reply =>
        rw [hr] at h
        cases h
    · rintro ⟨_, _, hsame, hr⟩
      cases hsame
      rw [hr]
      rfl

theorem StopsAt.not_passed (h : t.StopsAt policy config context tr w stage r after u) :
    r.passed = false := by
  cases h with
  | status _ _ _ result _ =>
    rw [result]
  | _ => rfl

theorem kind_of_transportFailure (e : TransportError) :
    (transportFailure e).kind ∈ Stage.dispatch.kinds := by
  cases e <;> simp [transportFailure, Stage.kinds]

theorem kind_of_forall₂_validate {validators : List Validator} {failures : List Failure}
    (h : List.Forall₂ (fun v f => v.validate response.body response.headers left = .error f)
      validators failures) : ∀ f ∈ failures, f.kind ∈ Stage.validation.kinds := by
  induction h with
  | nil =>
    intro f hf
    cases hf
  | cons hv _ ih =>
    intro f hf
    rcases List.mem_cons.mp hf with rfl | hf
    · rcases Validator.kind_of_validate_eq_error hv with hk | hk <;> rw [hk] <;> decide
    · exact ih f hf

/-- The failures of a test that stops have the shape of its stage. -/
theorem StopsAt.hasShape (h : t.StopsAt policy config context tr w stage r after u) :
    r.HasShape stage := by
  cases h with
  | preparation prepared sends =>
    refine ⟨rfl, fun g hg => ?_, rfl⟩
    rw [List.mem_singleton.mp hg]
    rcases t.failsWith_prepare _ _ _ prepared with hk | hk <;> rw [hk] <;> decide
  | dispatch prepared answered =>
    refine ⟨rfl, fun g hg => ?_, rfl⟩
    rw [List.mem_singleton.mp hg]
    exact kind_of_transportFailure _
  | status prepared answered expected result unasked =>
    rw [result]
    refine ⟨rfl, fun g hg => ?_, rfl⟩
    rw [List.mem_singleton.mp hg]
    exact List.mem_singleton.mpr rfl
  | validation prepared answered expected rejected failed =>
    refine ⟨fun hnil => ?_, kind_of_forall₂_validate failed, rfl⟩
    dsimp only at hnil
    obtain ⟨v, hv, hrejects⟩ := rejected
    have hmem : v ∈ t.validators.filter _ := List.mem_filter.mpr ⟨hv, hrejects⟩
    rw [hnil, List.forall₂_nil_right_iff] at failed
    rw [failed] at hmem
    cases hmem
  | extraction prepared answered expected accepted extractors extracted missing =>
    refine ⟨rfl, fun g hg => ?_, rfl⟩
    rw [List.mem_singleton.mp hg]
    exact List.mem_singleton.mpr rfl

/-- **The verdict on a test.**  A test passes exactly when it has no failures, and exactly when it
is prepared and answered, the status is as expected, every validator accepts the response in the
context that the preparation left, and the extractors get their values in order.  A test that does
not pass stopped at a stage, and its failures have the shape of that stage and of no other.  There
is no result where the request was prepared and its exchange breaks off, and nowhere else. -/
theorem run_verdict :
    match (t.run policy config context).run tr w with
    | (.ok (r, after), u) =>
      (r.passed = true ↔ r.failures = []) ∧
      (r.passed = true ↔ ∃ request left response after,
        t.Passes policy config context tr w request left response after) ∧
      (r.passed = false → ∃ stage,
        t.StopsAt policy config context tr w stage r after u ∧ r.HasShape stage ∧
          ∀ stage', r.HasShape stage' → stage' = stage)
    | (.error b, _) => ∃ request left, t.prepare.run.run context = (.ok request, left) ∧
        config.replyTo policy tr w request = .error b := by
  rcases hrun : (t.run policy config context).run tr w with ⟨b | ⟨r, after⟩, u⟩
  · exact (t.run_eq_error_iff policy config context tr w).mp (congrArg Prod.fst hrun)
  · dsimp only
    rcases t.passes_or_stopsAt policy config context tr w hrun with h | ⟨stage, h⟩
    · obtain ⟨request, left, response, hpasses⟩ := h
      have hr : (.ok (r, after) : Except Break _) = .ok _ :=
        (congrArg Prod.fst hrun).symm.trans hpasses.run_eq
      obtain ⟨rfl, -⟩ := Prod.mk.inj (Except.ok.inj hr)
      exact ⟨⟨fun _ => rfl, fun _ => rfl⟩,
        ⟨fun _ => ⟨request, left, response, after, hpasses⟩, fun _ => rfl⟩,
        fun hf => (nomatch hf)⟩
    · have hfalse : r.passed = false := h.not_passed
      have hshape : r.HasShape stage := h.hasShape
      refine ⟨?_, ?_, fun _ => ⟨stage, h, hshape, fun _ h' => hshape.unique h'⟩⟩
      · rw [hfalse]
        exact ⟨fun hf => (nomatch hf), fun hnil => absurd hnil hshape.failures_ne_nil⟩
      · constructor
        · intro htrue
          rw [hfalse] at htrue
          cases htrue
        · rintro ⟨request, left, response, after', hpasses⟩
          have hr : (.ok (r, after) : Except Break _) = .ok _ :=
            (congrArg Prod.fst hrun).symm.trans hpasses.run_eq
          obtain ⟨rfl, -⟩ := Prod.mk.inj (Except.ok.inj hr)
          rfl

end Test

end HttpSuite
