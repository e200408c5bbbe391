import HttpSuite.Proofs.Context
import HttpSuite.Proofs.Failures
import HttpSuite.Proofs.Variables

/-!
# Preparing a test, source by source

Before its request is resolved a test binds variables, whose values come from three kinds of
sources: templates, generators, and extractors that need no response.  The three kinds are gone
through one after another, and within each the order is that of the test, so that a preparation is
one walk along `Test.sources`, with the request at its end (`Test.prepare_eq`).

`Fetched` is a walk that got every value: each is fetched in the context that holds those before it.
A preparation that fails has walked some sources and failed at the next one or, after all of them, at
the request (`Test.run_prepare_eq_error`).  Fetching a value binds nothing, so all that a walk does
to the variables is to bind the names of its sources, in order (`Fetched.bindings_eq`).
-/

namespace HttpSuite

/-- Where a variable that is bound before the request gets its value. -/
inductive Source where
  | template (v : Value)
  | generator (name : String)
  | extractor (x : Extractor)

/-- Gets the value for a variable, without binding it. -/
def Source.fetch (name : String) : Source → Preparation Value
  | template v => Preparation.pass (PassM.resolve v)
  | generator g => fun c =>
    let (result, c) := c.next g
    (result.mapError (Preparation.notGenerated name g), c)
  | extractor x => fun c => ((x.extract [] [] c).mapError (Preparation.notExtracted name), c)

namespace Source

theorem run_fetch_generator (g name : String) (c : Context) :
    ((generator g).fetch name).run.run c =
      ((c.next g).1.mapError (Preparation.notGenerated name g), (c.next g).2) := rfl

theorem run_fetch_extractor (x : Extractor) (name : String) (c : Context) :
    ((extractor x).fetch name).run.run c =
      ((x.extract [] [] c).mapError (Preparation.notExtracted name), c) := rfl

end Source

/-- The variables that a test binds before its request, with their sources, in order. -/
def Test.sources (t : Test) : List (String × Source) :=
  t.variableBinds.map (fun e => (e.1, .template e.2)) ++
    (t.generatorBinds.map (fun e => (e.1, .generator e.2)) ++
      t.extractorsBefore.map (fun e => (e.1, .extractor e.2)))

/-- Some sources have given their values, each in the context that holds the values before it. -/
inductive Fetched : List (String × Source) → Context → Mapping → Context → Prop where
  | nil (c : Context) : Fetched [] c [] c
  | cons {name : String} {source : Source} {rest : List (String × Source)} {c d after : Context}
      {v : Value} {bound : Mapping} (head : (source.fetch name).run.run c = (.ok v, d))
      (tail : Fetched rest (d.bind name v) bound after) :
      Fetched ((name, source) :: rest) c ((name, v) :: bound) after

/-! ## A preparation is a walk along its sources -/

namespace Preparation

/-- Binds the values of sources in order. -/
def bindSources : List (String × Source) → Preparation Unit
  | [] => pure ()
  | (name, source) :: rest => do
    let v ← source.fetch name
    bind name v
    bindSources rest

theorem bindSources_append (first more : List (String × Source)) :
    bindSources (first ++ more) = bindSources first >>= fun _ => bindSources more := by
  induction first with
  | nil => exact (pure_bind () fun _ => bindSources more).symm
  | cons s rest ih =>
    obtain ⟨name, source⟩ := s
    rw [List.cons_append, bindSources, bindSources, ih]
    simp only [bind_assoc]

theorem bindVariables_eq (binds : Mapping) :
    bindVariables binds = bindSources (binds.map fun e => (e.1, .template e.2)) := by
  induction binds with
  | nil => rfl
  | cons e rest ih => rw [bindVariables, List.map_cons, bindSources, ih]; rfl

theorem bindNext_eq (name generator : String) :
    bindNext name generator =
      (Source.generator generator).fetch name >>= fun v => bind name v := by
  funext c
  change bindNext name generator c =
    ((Source.generator generator).fetch name >>= fun v => bind name v).run.run c
  rw [ExceptT.run_run_bind, Source.run_fetch_generator, bindNext, Context.bindNext]
  rcases c.next generator with ⟨_ | v, d⟩ <;> rfl

theorem bindGenerated_eq (binds : List (String × String)) :
    bindGenerated binds = bindSources (binds.map fun e => (e.1, .generator e.2)) := by
  induction binds with
  | nil => rfl
  | cons e rest ih =>
    rw [bindGenerated, List.map_cons, bindSources, ih, bindNext_eq]
    simp only [bind_assoc]

theorem bindExtracted_eq (xs : List (String × Extractor)) :
    bindExtracted [] [] xs = bindSources (xs.map fun e => (e.1, .extractor e.2)) := by
  induction xs with
  | nil => rfl
  | cons e rest ih =>
    obtain ⟨name, x⟩ := e
    funext c
    change (bindExtracted [] [] ((name, x) :: rest)).run.run c =
      ((Source.extractor x).fetch name >>= fun v => bind name v >>= fun _ => bindSources _).run.run c
    rw [run_bindExtracted_cons, ExceptT.run_run_bind, ← ih, Source.run_fetch_extractor]
    cases x.extract [] [] c <;> rfl

variable {xs : List (String × Source)} {c d : Context}

theorem run_bindSources_cons (name : String) (source : Source) (rest : List (String × Source))
    (c : Context) : (bindSources ((name, source) :: rest)).run.run c =
      match (source.fetch name).run.run c with
      | (.ok v, d) => (bindSources rest).run.run (d.bind name v)
      | (.error f, d) => (.error f, d) := by
  rw [bindSources, ExceptT.run_run_bind]
  rcases (source.fetch name).run.run c with ⟨_ | v, d⟩ <;> rfl

/-- A walk to the end has got every value. -/
theorem exists_fetched (h : (bindSources xs).run.run c = (.ok (), d)) :
    ∃ bound, Fetched xs c bound d := by
  induction xs generalizing c with
  | nil =>
    cases h
    exact ⟨[], .nil _⟩
  | cons x rest ih =>
    obtain ⟨name, source⟩ := x
    rw [run_bindSources_cons] at h
    rcases hx : (source.fetch name).run.run c with ⟨f | v, e⟩
    · rw [hx] at h
      cases h
    · rw [hx] at h
      obtain ⟨bound, hrest⟩ := ih h
      exact ⟨(name, v) :: bound, .cons hx hrest⟩

/-- A walk that fails has got the values before the source at which it fails. -/
theorem exists_fetched_of_error {f : Failure} (h : (bindSources xs).run.run c = (.error f, d)) :
    ∃ before name source rest bound reached, xs = before ++ (name, source) :: rest ∧
      Fetched before c bound reached ∧ (source.fetch name).run.run reached = (.error f, d) := by
  induction xs generalizing c with
  | nil => cases h
  | cons x rest ih =>
    obtain ⟨name, source⟩ := x
    rw [run_bindSources_cons] at h
    rcases hx : (source.fetch name).run.run c with ⟨g | v, e⟩
    · rw [hx] at h
      cases h
      exact ⟨[], name, source, rest, [], c, rfl, .nil c, hx⟩
    · rw [hx] at h
      obtain ⟨before, name', source', after, bound, reached, rfl, hbefore, hfails⟩ := ih h
      exact ⟨(name, source) :: before, name', source', after, (name, v) :: bound, reached, rfl,
        .cons hx hbefore, hfails⟩

end Preparation

namespace Test

open Preparation (bindSources)

variable {t : Test} {c left : Context}

/-- **A preparation walks along the sources** and then resolves the request. -/
theorem prepare_eq (t : Test) :
    t.prepare = bindSources t.sources >>= fun _ => Preparation.pass t.resolveRequest := by
  rw [prepare, Preparation.bindVariables_eq, Preparation.bindGenerated_eq,
    Preparation.bindExtracted_eq, sources, Preparation.bindSources_append,
    Preparation.bindSources_append]
  simp only [bind_assoc]

theorem run_prepare_eq_ok {request : Request} (h : t.prepare.run.run c = (.ok request, left)) :
    ∃ bound reached, Fetched t.sources c bound reached ∧
      reached.pass t.resolveRequest = (.ok request, left) := by
  rw [prepare_eq] at h
  obtain ⟨_, reached, hsources, hrequest⟩ := ExceptT.eq_ok_of_bind h
  obtain ⟨bound, hfetched⟩ := Preparation.exists_fetched hsources
  exact ⟨bound, reached, hfetched, Preparation.run_pass_eq_ok hrequest⟩

/-- What a preparation fails at after some of its sources: the next one or, without a next one, the
request. -/
def FailsAt (t : Test) (f : Failure) (left : Context) (reached : Context) :
    List (String × Source) → Prop
  | [] => (Preparation.pass t.resolveRequest).run.run reached = (.error f, left)
  | (name, source) :: _ => (source.fetch name).run.run reached = (.error f, left)

theorem run_prepare_eq_error {f : Failure} (h : t.prepare.run.run c = (.error f, left)) :
    ∃ before rest bound reached, t.sources = before ++ rest ∧ Fetched before c bound reached ∧
      t.FailsAt f left reached rest := by
  rw [prepare_eq, ExceptT.run_run_bind] at h
  rcases hsources : (bindSources t.sources).run.run c with ⟨g | _, reached⟩
  · rw [hsources] at h
    cases h
    obtain ⟨before, name, source, rest, bound, reached, hsplit, hbefore, hfails⟩ :=
      Preparation.exists_fetched_of_error hsources
    exact ⟨before, (name, source) :: rest, bound, reached, hsplit, hbefore, hfails⟩
  · rw [hsources] at h
    obtain ⟨bound, hfetched⟩ := Preparation.exists_fetched hsources
    exact ⟨t.sources, [], bound, reached, (List.append_nil _).symm, hfetched, h⟩

end Test

/-! ## What a walk does to the variables -/

theorem Preparation.sameVariables_pass {α : Type} {action : PassM α} (h : action.KeepsVariables)
    (c : Context) : c.SameVariables ((Preparation.pass action).run.run c).2 := by
  rw [run_pass]
  exact c.sameVariables_pass h

/-- **Fetching binds nothing**, whether it succeeds or not. -/
theorem Source.sameVariables_fetch (source : Source) (name : String) (c : Context) :
    c.SameVariables ((source.fetch name).run.run c).2 := by
  cases source with
  | template v => exact Preparation.sameVariables_pass (PassM.keepsVariables_resolve v) c
  | generator g =>
    rw [run_fetch_generator]
    exact c.sameVariables_next g
  | extractor x => exact .refl c

theorem Test.FailsAt.sameVariables {t : Test} {f : Failure} {left reached : Context}
    {rest : List (String × Source)} (h : t.FailsAt f left reached rest) :
    reached.SameVariables left := by
  cases rest with
  | nil =>
    have hsame := Preparation.sameVariables_pass t.keepsVariables_resolveRequest reached
    rwa [show (Preparation.pass t.resolveRequest).run.run reached = _ from h] at hsame
  | cons x rest =>
    obtain ⟨name, source⟩ := x
    have hsame := source.sameVariables_fetch name reached
    rwa [show (source.fetch name).run.run reached = _ from h] at hsame

namespace Fetched

variable {xs : List (String × Source)} {c after : Context} {bound : Mapping}

theorem keys_eq (h : Fetched xs c bound after) : Entries.keys bound = Entries.keys xs := by
  induction h with
  | nil c => rfl
  | @cons name source rest c d after v bound _ _ ih => exact congrArg (name :: ·) ih

/-- A walk binds the names of its sources, in order, and no others. -/
theorem bindings_eq (h : Fetched xs c bound after) :
    after.bindings = Entries.insertAll c.bindings bound := by
  induction h with
  | nil c => rfl
  | @cons name source rest c d after v bound head _ ih =>
    have hsame := source.sameVariables_fetch name c
    rw [head] at hsame
    rw [ih, Entries.insertAll_cons, hsame.bindings_eq]
    rfl

end Fetched

end HttpSuite
