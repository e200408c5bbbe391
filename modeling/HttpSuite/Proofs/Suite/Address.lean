import HttpSuite.Proofs.Actions
import HttpSuite.Proofs.Variables
import Mathlib.Data.List.Infix

/-!
# The address of a request

A test names an address, which is resolved first.  If a base is bound, a relative address goes after
it, with one slash between the two (`Test.joinUrl_of_both` and the lemmas beside it).

An address is absolute if it begins with a scheme (`Test.HasScheme`).  The program does not look for
one: it takes an address for absolute if the separator that comes after a scheme occurs anywhere in
it.  The two agree on addresses that begin with a scheme and on those without the separator.  What
else holds a separator, say in its query, is sent without the base, so that the address is the wrong
one unless the base has nothing to add (`Test.address_iff_separator`).
-/

namespace HttpSuite

theorem Text.isPart_iff {part cs : List Char} : Text.isPart part cs = true ↔ part <:+: cs := by
  induction cs with
  | nil => rw [isPart, List.isEmpty_iff, List.infix_nil]
  | cons c cs ih =>
    rw [isPart, Bool.or_eq_true, List.isPrefixOf_iff_prefix, ih, List.infix_cons_iff]

namespace Test

variable {base path url u : String} {t : Test} {c : Context}

/-! ## One slash -/

def EndsInSlash (s : String) : Prop := s.toList.getLast? = some '/'

def BeginsWithSlash (s : String) : Prop := s.toList.head? = some '/'

instance (s : String) : Decidable (EndsInSlash s) := inferInstanceAs (Decidable (_ = _))

instance (s : String) : Decidable (BeginsWithSlash s) := inferInstanceAs (Decidable (_ = _))

/-- Two parts of an address with one slash between them: one is put in if there is none, and one is
left out if there are two. -/
inductive IsJoined (base path : String) : String → Prop where
  | both (hbase : EndsInSlash base) (hpath : BeginsWithSlash path) :
      IsJoined base path (base ++ String.ofList path.toList.tail)
  | one (h : EndsInSlash base ↔ ¬ BeginsWithSlash path) : IsJoined base path (base ++ path)
  | neither (hbase : ¬ EndsInSlash base) (hpath : ¬ BeginsWithSlash path) (hne : path ≠ "") :
      IsJoined base path (base ++ "/" ++ path)
  | nothing (hbase : ¬ EndsInSlash base) (hpath : path = "") : IsJoined base path base

theorem joinUrl_of_both (hbase : EndsInSlash base) (hpath : BeginsWithSlash path) :
    joinUrl base path = base ++ String.ofList path.toList.tail := by
  obtain ⟨rest, hrest⟩ := List.head?_eq_some_iff.mp hpath
  rw [joinUrl, hbase, hrest]
  rfl

theorem joinUrl_of_left (hbase : EndsInSlash base) (hpath : ¬ BeginsWithSlash path) :
    joinUrl base path = base ++ path := by
  rw [joinUrl, hbase]
  split
  · rename_i hcons
    exact absurd (List.head?_eq_some_iff.mpr ⟨_, hcons⟩) hpath
  · contradiction
  · contradiction
  · rfl

theorem joinUrl_of_right (hbase : ¬ EndsInSlash base) (hpath : BeginsWithSlash path) :
    joinUrl base path = base ++ path := by
  obtain ⟨rest, hrest⟩ := List.head?_eq_some_iff.mp hpath
  have hno : (base.toList.getLast? == some '/') = false := beq_false_of_ne hbase
  rw [joinUrl, hno, hrest]
  rfl

theorem joinUrl_of_neither (hbase : ¬ EndsInSlash base) (hpath : ¬ BeginsWithSlash path)
    (hne : path ≠ "") : joinUrl base path = base ++ "/" ++ path := by
  have hno : (base.toList.getLast? == some '/') = false := beq_false_of_ne hbase
  rw [joinUrl, hno]
  cases hlist : path.toList with
  | nil => exact absurd (String.toList_eq_nil_iff.mp hlist) hne
  | cons c rest =>
    have hc : c ≠ '/' := by
      rintro rfl
      exact hpath (List.head?_eq_some_iff.mpr ⟨rest, hlist⟩)
    exact if_neg hc

theorem joinUrl_empty (hbase : ¬ EndsInSlash base) : joinUrl base "" = base := by
  have hno : (base.toList.getLast? == some '/') = false := beq_false_of_ne hbase
  rw [joinUrl, hno]
  rfl

/-- **Two parts are joined in one way**, and that is how the program joins them. -/
theorem isJoined_iff : IsJoined base path url ↔ url = joinUrl base path := by
  constructor
  · intro h
    cases h with
    | both hbase hpath => exact (joinUrl_of_both hbase hpath).symm
    | one h =>
      by_cases hbase : EndsInSlash base
      · exact (joinUrl_of_left hbase (h.mp hbase)).symm
      · exact (joinUrl_of_right hbase (not_not.mp (mt h.mpr hbase))).symm
    | neither hbase hpath hne => exact (joinUrl_of_neither hbase hpath hne).symm
    | nothing hbase hpath =>
      rw [hpath]
      exact (joinUrl_empty hbase).symm
  · rintro rfl
    by_cases hbase : EndsInSlash base
    · by_cases hpath : BeginsWithSlash path
      · rw [joinUrl_of_both hbase hpath]
        exact .both hbase hpath
      · rw [joinUrl_of_left hbase hpath]
        exact .one (iff_of_true hbase hpath)
    · by_cases hpath : BeginsWithSlash path
      · rw [joinUrl_of_right hbase hpath]
        exact .one (iff_of_false hbase (not_not.mpr hpath))
      · by_cases hne : path = ""
        · rw [hne, joinUrl_empty hbase]
          exact .nothing hbase rfl
        · rw [joinUrl_of_neither hbase hpath hne]
          exact .neither hbase hpath hne

/-- A base adds nothing only before an address that begins with a slash, and then only if it is
empty or a slash itself. -/
theorem isJoined_self_iff (hne : u ≠ "") :
    IsJoined base u u ↔ BeginsWithSlash u ∧ (base = "" ∨ base = "/") := by
  constructor
  · have hcases : ∀ url, IsJoined base u url → url.toList = u.toList →
        BeginsWithSlash u ∧ (base = "" ∨ base = "/") := by
      intro url h hurl
      cases h with
      | both _ hpath =>
        obtain ⟨rest, hrest⟩ := List.head?_eq_some_iff.mp hpath
        rw [String.toList_append, String.toList_ofList, hrest, List.tail_cons,
          ← List.singleton_append] at hurl
        have hslash : base.toList = "/".toList := List.append_cancel_right hurl
        exact ⟨hpath, .inr (String.toList_inj.mp hslash)⟩
      | one h =>
        rw [String.toList_append] at hurl
        have hempty := String.toList_eq_nil_iff.mp (List.append_left_eq_self.mp hurl)
        subst hempty
        exact ⟨not_not.mp (mt h.mpr (by decide)), .inl rfl⟩
      | neither _ _ _ =>
        rw [String.toList_append] at hurl
        have hnil := List.append_left_eq_self.mp hurl
        rw [String.toList_append] at hnil
        cases (List.append_eq_nil_iff.mp hnil).2
      | nothing _ hpath => exact absurd hpath hne
    exact fun h => hcases u h rfl
  · rintro ⟨hpath, rfl | rfl⟩
    · have hno : ¬ EndsInSlash "" := by decide
      rw [isJoined_iff, joinUrl_of_right hno hpath]
      exact String.empty_append.symm
    · have hends : EndsInSlash "/" := by decide
      obtain ⟨rest, hrest⟩ := List.head?_eq_some_iff.mp hpath
      rw [isJoined_iff, joinUrl_of_both hends hpath, ← String.toList_inj, String.toList_append,
        hrest, List.tail_cons, String.toList_ofList (l := rest)]
      rfl

/-! ## Schemes -/

def isSchemeChar (c : Char) : Bool := c.isAlphanum || c == '+' || c == '-' || c == '.'

/-- The separator that comes after a scheme. -/
def schemeEnd : String := "://"

/-- A scheme at the beginning: a letter, characters of schemes and a separator. -/
def HasScheme (u : String) : Prop :=
  ∃ c name rest, u.toList = c :: name ++ schemeEnd.toList ++ rest ∧ c.isAlpha = true ∧
    ∀ d ∈ name, isSchemeChar d = true

/-- A separator at any place. -/
def HasSeparator (u : String) : Prop := schemeEnd.toList <:+: u.toList

theorem HasScheme.hasSeparator (h : HasScheme u) : HasSeparator u := by
  obtain ⟨c, name, rest, hu, -, -⟩ := h
  exact ⟨c :: name, rest, hu.symm⟩

theorem HasSeparator.ne_empty (h : HasSeparator u) : u ≠ "" := by
  rintro rfl
  cases List.infix_nil.mp h

/-- What begins with a slash does not begin with a scheme. -/
theorem not_hasScheme (h : BeginsWithSlash u) : ¬ HasScheme u := by
  rintro ⟨c, name, rest, hu, hc, -⟩
  rw [BeginsWithSlash, hu] at h
  cases h
  cases hc

/-! ## What is sent -/

/-- The address of a request from the one that is resolved and the base. -/
theorem run_resolveUrl {p d : Pass} {base : Value}
    (h : (PassM.resolveString t.url).run.run p = (.ok u, d))
    (hbase : p.context.get? baseUrlVariable = some base) :
    ∃ url, t.resolveUrl.run.run p = (.ok url, d) ∧ (HasSeparator u → url = u) ∧
      (¬ HasSeparator u → url = joinUrl base.render u) := by
  by_cases hseparator : HasSeparator u
  · have hpart : Text.isPart "://".toList u.toList = true := Text.isPart_iff.mpr hseparator
    refine ⟨u, ?_, fun _ => rfl, absurd hseparator⟩
    rw [resolveUrl, ExceptT.run_run_bind, h]
    simp only [if_pos hpart]
    rfl
  · have hpart : ¬ Text.isPart "://".toList u.toList = true := mt Text.isPart_iff.mp hseparator
    refine ⟨joinUrl base.render u, ?_, fun h => absurd h hseparator, fun _ => rfl⟩
    -- the base is bound in the pass as it was before it
    have hkeeps := PassM.keepsVariables_resolveString t.url p
    rw [h] at hkeeps
    have hlater : (PassM.getVariable baseUrlVariable).run.run d = (.ok (some base), d) := by
      change (Except.ok (d.context.get? baseUrlVariable), d) = _
      rw [← hbase, Context.get?, Context.get?, hkeeps.bindings_eq]
    rw [resolveUrl, ExceptT.run_run_bind, h]
    simp only [if_neg hpart]
    rw [ExceptT.run_run_bind, hlater]
    rfl

theorem run_resolveUrl_of_error {p d : Pass} {e : TemplateError}
    (h : (PassM.resolveString t.url).run.run p = (.error e, d)) :
    t.resolveUrl.run.run p = (.error e, d) := by
  rw [resolveUrl, ExceptT.run_run_bind, h]

theorem run_resolveRequest_of_error {p d : Pass} {e : TemplateError}
    (h : t.resolveUrl.run.run p = (.error e, d)) :
    t.resolveRequest.run.run p = (.error e, d) := by
  rw [resolveRequest, ExceptT.run_run_bind, h]

/-- A request goes to the address that is resolved for it. -/
theorem url_of_run_resolveRequest {p d d' : Pass} {req : Request}
    (h : t.resolveUrl.run.run p = (.ok url, d))
    (hreq : t.resolveRequest.run.run p = (.ok req, d')) : req.url = url := by
  obtain ⟨url', _, hurl, hreq⟩ := ExceptT.eq_ok_of_bind hreq
  rw [h] at hurl
  cases hurl
  obtain ⟨headers, _, -, hreq⟩ := ExceptT.eq_ok_of_bind hreq
  obtain ⟨body, _, -, hreq⟩ := ExceptT.eq_ok_of_bind hreq
  obtain ⟨auth, _, -, hreq⟩ := ExceptT.eq_ok_of_bind hreq
  cases hreq
  rfl

theorem exists_run_of_pass {α : Type} {action : PassM α} {x : Except TemplateError α}
    (h : (c.pass action).1 = x) : ∃ d, action.run.run ⟨c, []⟩ = (x, d) :=
  ⟨(action.run.run ⟨c, []⟩).2, Prod.ext h rfl⟩

/-- **The address of a request.**  With a base that is bound, and an address that resolves to `u`,
the request goes to `u` if there is a separator in `u`, and to the base and `u` joined by one slash
if there is none.  An address that begins with a scheme has a separator.  So an address without a
scheme is joined to the base if and only if it has no separator, unless the base adds nothing to it.
If the address does not resolve, there is no request. -/
theorem address_iff_separator (t : Test) (c : Context) (base : Value)
    (hbase : c.get? baseUrlVariable = some base) :
    (∀ e, (c.pass (PassM.resolveString t.url)).1 = .error e →
      (c.pass t.resolveRequest).1 = .error e) ∧
    ∀ u, (c.pass (PassM.resolveString t.url)).1 = .ok u →
      ∃ url, (c.pass t.resolveUrl).1 = .ok url ∧
        (∀ req, (c.pass t.resolveRequest).1 = .ok req → req.url = url) ∧
        (HasSeparator u → url = u) ∧ (HasScheme u → HasSeparator u) ∧
        (BeginsWithSlash u → ¬ HasScheme u) ∧
        (¬ HasSeparator u → IsJoined base.render u url) ∧
        (¬ HasScheme u → (IsJoined base.render u url ↔ ¬ HasSeparator u ∨
          BeginsWithSlash u ∧ (base.render = "" ∨ base.render = "/"))) := by
  constructor
  · intro e he
    obtain ⟨d, hrun⟩ := exists_run_of_pass he
    exact congrArg Prod.fst (run_resolveRequest_of_error (run_resolveUrl_of_error hrun))
  · intro u hu
    obtain ⟨d, hrun⟩ := exists_run_of_pass hu
    obtain ⟨url, hurl, habsolute, hrelative⟩ := run_resolveUrl hrun hbase
    refine ⟨url, congrArg Prod.fst hurl, fun req hreq => ?_, habsolute, HasScheme.hasSeparator,
      not_hasScheme, fun hno => isJoined_iff.mpr (hrelative hno), fun _ => ?_⟩
    · obtain ⟨d', hrunReq⟩ := exists_run_of_pass hreq
      exact url_of_run_resolveRequest hurl hrunReq
    · by_cases hseparator : HasSeparator u
      · rw [habsolute hseparator, isJoined_self_iff hseparator.ne_empty]
        exact (or_iff_right (not_not.mpr hseparator)).symm
      · exact iff_of_true (isJoined_iff.mpr (hrelative hseparator)) (.inl hseparator)

/-- A base without a slash at its end, and the number of an item. -/
def based : Context :=
  ((Context.empty []).bind baseUrlVariable (.string "http://h")).bind "id" (.int 7)

/-- A relative address with a reference in it, and an absolute one. -/
theorem address_iff_separator_items :
    (based.pass (ofUrl "items/{{id}}").resolveUrl).1 = .ok "http://h/items/7" ∧
      (based.pass (ofUrl "ftp://x/{{id}}").resolveUrl).1 = .ok "ftp://x/7" := by
  have hbase : based.get? baseUrlVariable = some (.string "http://h") := rfl
  constructor
  · have hu : (based.pass (PassM.resolveString "items/{{id}}")).1 = .ok "items/7" :=
      Except.eq_ok_of_toOption (by decide +kernel)
    have hno : ¬ HasSeparator "items/7" := by
      rw [HasSeparator, ← Text.isPart_iff]
      decide
    obtain ⟨url, hurl, -, -, -, -, hjoined, -⟩ :=
      (address_iff_separator (ofUrl "items/{{id}}") based _ hbase).2 "items/7" hu
    have hjoin : url = joinUrl "http://h" "items/7" := isJoined_iff.mp (hjoined hno)
    rw [hurl, hjoin]
    decide +kernel
  · have hu : (based.pass (PassM.resolveString "ftp://x/{{id}}")).1 = .ok "ftp://x/7" :=
      Except.eq_ok_of_toOption (by decide +kernel)
    have hscheme : HasScheme "ftp://x/7" :=
      ⟨'f', "tp".toList, "x/7".toList, by decide, by decide, List.all_eq_true.mp (by decide)⟩
    obtain ⟨url, hurl, -, habsolute, hseparator, -⟩ :=
      (address_iff_separator (ofUrl "ftp://x/{{id}}") based _ hbase).2 "ftp://x/7" hu
    rw [hurl, habsolute (hseparator hscheme)]

/-- An address that begins with a slash and names another one in its query is sent as it is. -/
theorem redirect_without_base :
    let u := "/go?to=http://x/"
    (based.pass (PassM.resolveString u)).1 = .ok u ∧ BeginsWithSlash u ∧ ¬ HasScheme u ∧
      ¬ IsJoined "http://h" u u ∧ ∃ req, (based.pass (ofUrl u).resolveRequest).1 = .ok req ∧
        req.url = u := by
  intro u
  have hu : (based.pass (PassM.resolveString u)).1 = .ok u :=
    Except.eq_ok_of_toOption (by decide +kernel)
  have hslash : BeginsWithSlash u := by decide
  have hrequest : (based.pass (ofUrl u).resolveRequest).1.toOption.map Request.url = some u := by
    decide +kernel
  obtain ⟨req, hreq, hurl⟩ := Option.map_eq_some_iff.mp hrequest
  refine ⟨hu, hslash, not_hasScheme hslash, ?_, req, Except.eq_ok_of_toOption hreq, hurl⟩
  rw [isJoined_self_iff (by decide)]
  decide

end Test

end HttpSuite
