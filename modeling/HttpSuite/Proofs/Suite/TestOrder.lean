import HttpSuite.Proofs.Document.Fields
import HttpSuite.Suite.Test

/-!
# A test declaration in any order

The fields of a declaration are set on a test one after the other, and no field reads what another
one has set: fifteen parts of the test have one key each, and only the extractors that run after the
response come under two keys and are collected.  So a test does not depend on the order of its
fields, but for the order of these two.
-/

namespace HttpSuite.Test

/-- The keys of the extractors that run after the response. -/
def extractorKeys : List String := ["extractors", "extract_binds"]

/-- Extractors that need no response. -/
def extractorsBeforeOf (r : Registry) (v : Value) :
    Except CompileError (List (String × Extractor)) := do
  let xs ← extractorsOf r v
  match xs.find? fun x => x.2.readsResponse with
  | some (name, _) => invalid (.readsBody name)
  | none => return xs

def methodOf (v : Value) : Except CompileError Method :=
  match Method.ofText? v.render with
  | some m => .ok m
  | none => invalid (.unsupportedMethod v.render)

def generatorBindsOf (v : Value) : Except CompileError (List (String × String)) := do
  return (← Fields.ofValue v "generator_binds").map fun b => (b.1, b.2.render)

/-- The slots of a test. -/
def slots (r : Registry) : List (Slot Test) :=
  [⟨String, ["url"], Test.url, fun _ url => .ok url⟩,
    ⟨String, ["name"], Test.name, fun v _ => .ok v.render⟩,
    ⟨Method, ["method"], Test.method, fun v _ => methodOf v⟩,
    ⟨Mapping, ["headers"], Test.headers, fun v _ => Fields.ofValue v.unmark "headers"⟩,
    ⟨Option Value, ["body"], Test.body, fun v _ => .ok (some v.unmark |>.filter (!·.isNull))⟩,
    ⟨List Nat, ["expected_status"], Test.expectedStatus, fun v _ => statusesOf v⟩,
    ⟨List Validator, ["validators"], Test.validators, fun v _ => validatorsOf r v⟩,
    ⟨List (String × Extractor), extractorKeys, Test.extractorsAfter,
      fun v xs => (extractorsOf r v).map (xs ++ ·)⟩,
    ⟨List (String × Extractor), ["extractors_before"], Test.extractorsBefore,
      fun v _ => extractorsBeforeOf r v⟩,
    ⟨List (String × String), ["generator_binds"], Test.generatorBinds,
      fun v _ => generatorBindsOf v⟩,
    ⟨Mapping, ["variable_binds"], Test.variableBinds, fun v _ => Fields.ofValue v "variable_binds"⟩,
    ⟨Bool, ["stop_on_failure"], Test.stopOnFailure, fun v _ => boolOf "stop_on_failure" v⟩,
    ⟨String, ["group"], Test.group, fun v _ => .ok v.render⟩,
    ⟨Option Duration, ["delay"], Test.delay, fun v _ => (delayOf v).map some⟩,
    ⟨Option Value, ["auth_username"], Test.authUsername, fun v _ => .ok (some v)⟩,
    ⟨Option Value, ["auth_password"], Test.authPassword, fun v _ => .ok (some v)⟩]

variable {r : Registry} {t t' : Test} {fields fields' : Mapping} {node node' : Value}

/-- What a field does: it updates the slots that it belongs to and leaves the others alone, whatever
the test is that it is set on. -/
theorem setField_spec {key : String} {v : Value} (h : t.setField r key v = .ok t') :
    (∀ f ∈ slots r,
      if key ∈ f.keys then f.update v (f.get t) = .ok (f.get t') else f.get t' = f.get t) ∧
    ∀ u : Test, ∃ u', u.setField r key v = .ok u' := by
  unfold setField at h ⊢
  -- the cases are those of the key
  split at h
  case h_1 | h_2 | h_5 | h_14 | h_16 | h_17 =>
    cases h
    exact ⟨by simp [slots, extractorKeys], fun u => ⟨_, rfl⟩⟩
  case h_3 =>
    cases hmethod : Method.ofText? v.render with
    | none =>
      rw [hmethod] at h
      cases h
    | some m =>
      rw [hmethod] at h
      cases h
      exact ⟨by simp [slots, extractorKeys, methodOf, hmethod], fun u => ⟨_, rfl⟩⟩
  case h_4 | h_6 | h_7 | h_8 | h_9 | h_11 | h_12 | h_13 | h_15 =>
    obtain ⟨a, ha, h⟩ := Except.eq_ok_of_bind h
    cases h
    refine ⟨by simp [slots, extractorKeys, ha, Except.map, generatorBindsOf], fun u => ?_⟩
    rw [ha]
    exact ⟨_, rfl⟩
  case h_10 =>
    obtain ⟨xs, hxs, h⟩ := Except.eq_ok_of_bind h
    cases hfind : xs.find? fun x => x.2.readsResponse with
    | some x =>
      rw [hfind] at h
      cases h
    | none =>
      rw [hfind] at h
      cases h
      have hbefore : extractorsBeforeOf r v = .ok xs := by
        simp only [extractorsBeforeOf, hxs, bind, Except.bind, hfind, pure, Except.pure]
      refine ⟨by simp [slots, extractorKeys, hbefore], fun u => ?_⟩
      simp only [hxs, bind, Except.bind, hfind]
      exact ⟨_, rfl⟩
  case h_18 => cases h

theorem isSetBy_slots (r : Registry) :
    ∀ f ∈ slots r, f.IsSetBy (fun (t : Test) key v => t.setField r key v) fun _ _ => True :=
  fun f hf _ _ _ _ _ h => (setField_spec h).1 f hf

theorem steady_setField (r : Registry) :
    Slot.Steady fun (t : Test) key v => t.setField r key v :=
  fun _ u _ _ _ h => (setField_spec h).2 u

/-- A test is what its slots hold. -/
theorem eq_of_slots (h : ∀ f ∈ slots r, f.get t = f.get t') : t = t' := by
  simp only [slots, List.forall_mem_cons] at h
  cases t
  cases t'
  simp_all

/-- Fields in another order, where those of a slot with several keys keep theirs, leave every slot
its own fields. -/
theorem own_eq_of_perm (hperm : fields.Perm fields') (hnodup : (Entries.keys fields).Nodup)
    (horder : fields.filter (fun e => e.1 ∈ extractorKeys) =
      fields'.filter fun e => e.1 ∈ extractorKeys) :
    ∀ f ∈ slots r, f.own fields = f.own fields' := by
  have hkeys : ∀ f ∈ slots r, (∃ key, f.keys = [key]) ∨ f.keys = extractorKeys := by
    simp [slots]
  intro f hf
  rcases hkeys f hf with ⟨key, hkey⟩ | hextractors
  · exact Slot.own_perm hkey hnodup hperm
  · rw [Slot.own, Slot.own, hextractors, horder]

theorem compile_eq_ok_iff (hfields : Fields.lowered node "test" = .ok fields) :
    compile r node = .ok t ↔ ∃ url, urlOf fields = .ok url ∧
      fields.foldlM (fun t e => t.setField r e.1 e.2) { ofUrl url with name := "Unnamed" } =
        .ok t := by
  rw [compile, hfields]
  change (urlOf fields >>= fun url => _) = _ ↔ _
  constructor
  · exact Except.eq_ok_of_bind
  · rintro ⟨url, hurl, hrun⟩
    rw [hurl]
    exact hrun

theorem compile_of_perm (hfields : Fields.lowered node "test" = .ok fields)
    (hfields' : Fields.lowered node' "test" = .ok fields') (hperm : fields.Perm fields')
    (hnodup : (Entries.keys fields).Nodup)
    (horder : fields.filter (fun e => e.1 ∈ extractorKeys) =
      fields'.filter fun e => e.1 ∈ extractorKeys)
    (h : compile r node = .ok t) : compile r node' = .ok t := by
  obtain ⟨url, hurl, hrun⟩ := (compile_eq_ok_iff hfields).mp h
  have hurl' : urlOf fields' = .ok url := by
    rwa [urlOf, ← Entries.get?_perm hnodup hperm, ← urlOf]
  obtain ⟨t', hrun'⟩ := Slot.exists_foldlM_of_perm (steady_setField r) hperm hrun
  have hsame : t = t' := eq_of_slots fun f hf =>
    Slot.get_eq_of_own (isSetBy_slots r f hf) (fun _ _ => trivial) (fun _ _ => trivial)
      (own_eq_of_perm hperm hnodup horder f hf) hrun hrun'
  exact (compile_eq_ok_iff hfields').mpr ⟨url, hurl', hsame ▸ hrun'⟩

/-- **A test declaration says the same in any order.**  However its fields are arranged, as a
mapping or as a list of mappings and with keys in any letter case, the declaration is at fault or it
is not; and if it is not, every part of the test is the same.  Only the two keys of extractors have
to stay in their order. -/
theorem compile_perm (r : Registry) (hnode : Fields.Declares node fields)
    (hnode' : Fields.Declares node' fields') (hnodup : (Entries.keys fields).Nodup)
    (hperm : fields.Perm fields')
    (horder : fields.filter (fun e => e.1 ∈ extractorKeys) =
      fields'.filter fun e => e.1 ∈ extractorKeys) :
    ∀ t, compile r node = .ok t ↔ compile r node' = .ok t := by
  have hnodup' : (Entries.keys fields').Nodup := (hperm.map Prod.fst).nodup_iff.mp hnodup
  have hfields := hnode.lowered_eq hnodup "test"
  have hfields' := hnode'.lowered_eq hnodup' "test"
  exact fun t => ⟨compile_of_perm hfields hfields' hperm hnodup horder,
    compile_of_perm hfields' hfields hperm.symm hnodup' horder.symm⟩

/-- Fields of a login, whose answer is read under both keys. -/
def loginFields : Mapping :=
  [("url", .string "/login"),
    ("extractors", .object [("token", .object [("jsonpath_mini", .string "token")])]),
    ("method", .string "post"),
    ("extract_binds", .array [.object [("id", .object [("header", .string "x-id")])]])]

def loginMapping : Value :=
  .object [("URL", loginFields[0].2), ("extractors", loginFields[1].2),
    ("method", loginFields[2].2), ("extract_binds", loginFields[3].2)]

/-- The same fields as a list of mappings, in another order. -/
def loginList : Value :=
  .array [.object [("method", loginFields[2].2)],
    .object [("Extractors", loginFields[1].2), ("url", loginFields[0].2)],
    .object [("EXTRACT_BINDS", loginFields[3].2)]]

/-- The first three fields the other way round. -/
def loginFieldsReordered : Mapping := (loginFields.take 3).reverse ++ loginFields.drop 3

theorem declares_loginMapping : Fields.Declares loginMapping loginFields := by
  have hkeys : lower "URL" = "url" ∧ lower "extractors" = "extractors" ∧
      lower "method" = "method" ∧ lower "extract_binds" = "extract_binds" := by decide
  have hdeclares := Fields.Declares.mapping [("URL", loginFields[0].2),
    ("extractors", loginFields[1].2), ("method", loginFields[2].2),
    ("extract_binds", loginFields[3].2)]
  simp only [Fields.lowerKeys, List.map_cons, List.map_nil, hkeys] at hdeclares
  exact hdeclares

theorem declares_loginList : Fields.Declares loginList loginFieldsReordered := by
  have hkeys : lower "method" = "method" ∧ lower "Extractors" = "extractors" ∧
      lower "url" = "url" ∧ lower "EXTRACT_BINDS" = "extract_binds" := by decide
  have hdeclares := Fields.Declares.list [[("method", loginFields[2].2)],
    [("Extractors", loginFields[1].2), ("url", loginFields[0].2)],
    [("EXTRACT_BINDS", loginFields[3].2)]]
  simp only [Fields.lowerKeys, List.flatten_cons, List.flatten_nil, List.cons_append,
    List.nil_append, List.map_cons, List.map_nil, hkeys] at hdeclares
  exact hdeclares

/-- Both declarations give one test, with the extractors of both keys in their order. -/
theorem compile_perm_login : ∃ t, compile .builtins loginMapping = .ok t ∧
    compile .builtins loginList = .ok t ∧ t.url = "/login" ∧ t.method = .post ∧
    Entries.keys t.extractorsAfter = ["token", "id"] := by
  have hperm : loginFields.Perm loginFieldsReordered :=
    (List.reverse_perm (loginFields.take 3)).symm.append_right (loginFields.drop 3)
  have hsame := compile_perm .builtins declares_loginMapping declares_loginList (by decide) hperm
    rfl
  have htest : (compile .builtins loginMapping).toOption.map (fun t =>
      (t.url, t.method, Entries.keys t.extractorsAfter)) =
      some ("/login", .post, ["token", "id"]) := by decide +kernel
  obtain ⟨t, ht, hparts⟩ := Option.map_eq_some_iff.mp htest
  obtain ⟨hurl, hmethod, hextractors⟩ : t.url = "/login" ∧ t.method = .post ∧
      Entries.keys t.extractorsAfter = ["token", "id"] := by simpa using hparts
  have hcompile := Except.eq_ok_of_toOption ht
  exact ⟨t, hcompile, (hsame t).mp hcompile, hurl, hmethod, hextractors⟩

end HttpSuite.Test
