import HttpSuite.Proofs.Template

/-!
# References in a text

`Template.pieces` reads a text from left to right.  This file says what it finds without reading:
`IsReference` is the grammar of references, and an occurrence is any way of writing the text as
`before ++ r ++ after` with a reference `r`.

## Why reading from the left loses nothing

An opening brace is neither a blank nor part of a name, so in a reference it stands in the first two
places and nowhere else.  Another reference that begins inside a reference would have to begin at
its second brace, and there it lacks one.  So no two occurrences overlap
(`reference?_append_of_isReference`), and which of them is found first does not matter.

`IsCut` puts this as a property of a list of segments: together they are the text, and every
occurrence in the text is one of them, at its place.  Every text has exactly one such cut
(`existsUnique_isCut`), and `pieces` are its segments without the wording of the references.
-/

namespace HttpSuite.Template

/-! ## Characters -/

theorem toNat_of_isBlank {c : Char} (h : Text.isBlank c = true) :
    c.toNat ≤ 32 ∨ 133 ≤ c.toNat := by
  simp [Text.isBlank, Text.blankRanges] at h
  omega

theorem toNat_of_isNameChar {c : Char} (h : isNameChar c = true) :
    45 ≤ c.toNat ∧ c.toNat ≤ 122 := by
  have hdash : '-'.toNat = 45 := rfl
  have hpoint : '.'.toNat = 46 := rfl
  have hline : '_'.toNat = 95 := rfl
  have hranges : isNameChar c =
      (decide (65 ≤ c.val ∧ c.val ≤ 90) || (decide (97 ≤ c.val) && decide (c.val ≤ 122)) ||
        (decide (48 ≤ c.val) && decide (c.val ≤ 57)) || c == '_' || c == '.' || c == '-') := rfl
  simp only [hranges, Bool.or_eq_true, Bool.and_eq_true, decide_eq_true_eq, beq_iff_eq,
    UInt32.le_iff_toNat_le] at h
  rcases h with ((h | rfl) | rfl) | rfl
  · change ((65 ≤ c.toNat ∧ c.toNat ≤ 90) ∨ (97 ≤ c.toNat ∧ c.toNat ≤ 122)) ∨
      (48 ≤ c.toNat ∧ c.toNat ≤ 57) at h
    omega
  all_goals omega

theorem isNameChar_of_isNameStart {c : Char} (h : isNameStart c = true) :
    isNameChar c = true := by
  simp only [isNameStart, isNameChar, Char.isAlphanum, Bool.or_eq_true] at h ⊢
  rcases h with h | h
  · exact .inl (.inl (.inl (.inl h)))
  · exact .inl (.inl (.inr h))

theorem isBlank_of_isNameChar {c : Char} (h : isNameChar c = true) : Text.isBlank c = false := by
  have hname := toNat_of_isNameChar h
  rw [← Bool.not_eq_true]
  intro hblank
  have := toNat_of_isBlank hblank
  omega

theorem isNameChar_of_isBlank {c : Char} (h : Text.isBlank c = true) : isNameChar c = false := by
  rw [← Bool.not_eq_true]
  intro hname
  rw [isBlank_of_isNameChar hname] at h
  cases h

theorem ne_openBrace_of_isNameChar {c : Char} (h : isNameChar c = true) : c ≠ openBrace := by
  rintro rfl
  exact absurd h (by decide)

/-! ## The grammar -/

/-- A name: an ASCII letter or an underscore, and then letters, digits, underscores, points and
hyphens. -/
def IsName (cs : List Char) : Prop :=
  ∃ first rest, cs = first :: rest ∧ isNameStart first = true ∧ ∀ c ∈ rest, isNameChar c = true

/-- What stands after the opening braces of a reference to `name`, up to its end. -/
def IsTail (name : String) (tail : List Char) : Prop :=
  ∃ before after : List Char,
    tail = before ++ (name.toList ++ (after ++ [closeBrace, closeBrace])) ∧
    (∀ c ∈ before, Text.isBlank c = true) ∧ (∀ c ∈ after, Text.isBlank c = true) ∧
    IsName name.toList

/-- **The grammar of references**: two opening braces, blanks, a name, blanks and two closing
braces. -/
def IsReference (name : String) (r : List Char) : Prop :=
  ∃ tail, r = openBrace :: openBrace :: tail ∧ IsTail name tail

theorem IsName.forall_isNameChar {cs : List Char} (h : IsName cs) :
    ∀ c ∈ cs, isNameChar c = true := by
  obtain ⟨first, rest, rfl, hfirst, hrest⟩ := h
  intro c hc
  rcases List.mem_cons.mp hc with rfl | hc
  · exact isNameChar_of_isNameStart hfirst
  · exact hrest c hc

/-- What is taken while it fits a name is one, if it begins like one. -/
theorem isName_takeWhile {cs : List Char}
    (h : (cs.takeWhile isNameChar).head?.any isNameStart = true) :
    IsName (cs.takeWhile isNameChar) := by
  cases hname : cs.takeWhile isNameChar with
  | nil =>
    rw [hname] at h
    cases h
  | cons first rest =>
    rw [hname] at h
    refine ⟨first, rest, rfl, h, fun c hc => ?_⟩
    have hmem : c ∈ cs.takeWhile isNameChar := hname ▸ List.mem_cons_of_mem _ hc
    exact List.mem_takeWhile_imp hmem

/-- A reading past characters that are all of one kind stops where they do. -/
theorem dropWhile_append_of_forall {p : Char → Bool} {l more : List Char}
    (hl : ∀ c ∈ l, p c = true) (hmore : more.head?.any p = false) :
    (l ++ more).dropWhile p = more ∧ (l ++ more).takeWhile p = l := by
  have hstop : more.dropWhile p = more ∧ more.takeWhile p = [] := by
    cases more with
    | nil => exact ⟨rfl, rfl⟩
    | cons c more =>
      have hc : p c = false := hmore
      simp [hc]
  rw [List.dropWhile_append_of_pos hl, List.takeWhile_append_of_pos hl, hstop.1, hstop.2]
  exact ⟨rfl, List.append_nil l⟩

/-- The tail of a reference is found wherever there is one at the start of the text. -/
theorem closing?_of_isTail {name : String} {tail : List Char} (h : IsTail name tail)
    (rest : List Char) : closing? (tail ++ rest) = some (name, rest) := by
  obtain ⟨before, after, rfl, hbefore, hafter, hname⟩ := h
  obtain ⟨first, others, hchars, hfirst, -⟩ := id hname
  have hbraces : (closeBrace :: closeBrace :: rest).head?.any Text.isBlank = false := rfl
  have hblanks : (after ++ closeBrace :: closeBrace :: rest).head?.any isNameChar = false := by
    cases after with
    | nil => rfl
    | cons c after => exact isNameChar_of_isBlank (hafter c (List.mem_cons_self ..))
  have hletter : (name.toList ++ (after ++ closeBrace :: closeBrace :: rest)).head?.any
      Text.isBlank = false := by
    rw [hchars]
    exact isBlank_of_isNameChar (isNameChar_of_isNameStart hfirst)
  have htext : before ++ (name.toList ++ (after ++ [closeBrace, closeBrace])) ++ rest =
      before ++ (name.toList ++ (after ++ closeBrace :: closeBrace :: rest)) := by simp
  have hstart := dropWhile_append_of_forall hbefore hletter
  have hmiddle := dropWhile_append_of_forall hname.forall_isNameChar hblanks
  have hend := dropWhile_append_of_forall hafter hbraces
  rw [htext, closing?]
  simp only [Text.trimStart, hstart.1, hmiddle.1, hmiddle.2, hend.1]
  rw [if_pos, String.ofList_toList]
  rw [hchars]
  simpa using hfirst

/-- A tail that is found at the start of a text is there. -/
theorem isTail_of_closing? {name : String} {cs rest : List Char}
    (h : closing? cs = some (name, rest)) : ∃ tail, IsTail name tail ∧ cs = tail ++ rest := by
  have hstart := List.takeWhile_append_dropWhile (p := Text.isBlank) (l := cs)
  have hmiddle := List.takeWhile_append_dropWhile (p := isNameChar)
    (l := cs.dropWhile Text.isBlank)
  have hend := List.takeWhile_append_dropWhile (p := Text.isBlank)
    (l := (cs.dropWhile Text.isBlank).dropWhile isNameChar)
  simp only [closing?, Text.trimStart] at h
  split at h
  · rename_i a b more heq
    obtain ⟨hcond, hfound⟩ := Option.ite_none_right_eq_some.mp h
    simp only [Bool.and_eq_true, beq_iff_eq] at hcond
    obtain ⟨⟨rfl, rfl⟩, hletter⟩ := hcond
    cases hfound
    rw [heq] at hend
    refine ⟨_, ⟨cs.takeWhile Text.isBlank,
      ((cs.dropWhile Text.isBlank).dropWhile isNameChar).takeWhile Text.isBlank, rfl,
      fun c hc => List.mem_takeWhile_imp hc, fun c hc => List.mem_takeWhile_imp hc, ?_⟩, ?_⟩
    · rw [String.toList_ofList]
      exact isName_takeWhile hletter
    · rw [String.toList_ofList]
      conv_lhs => rw [← hstart, ← hmiddle, ← hend]
      simp
  · cases h

/-- **What is read at the start of a text** is a reference there, and there is no other one. -/
theorem reference?_eq_some_iff {name : String} {cs rest : List Char} :
    reference? cs = some (name, rest) ↔ ∃ r, IsReference name r ∧ cs = r ++ rest := by
  constructor
  · intro h
    unfold reference? at h
    split at h
    · obtain ⟨hopen, hclosing⟩ := Option.ite_none_right_eq_some.mp h
      simp only [Bool.and_eq_true, beq_iff_eq] at hopen
      obtain ⟨rfl, rfl⟩ := hopen
      obtain ⟨tail, htail, rfl⟩ := isTail_of_closing? hclosing
      exact ⟨_, ⟨tail, rfl, htail⟩, rfl⟩
    · cases h
  · rintro ⟨r, ⟨tail, rfl, htail⟩, rfl⟩
    have hclosing := closing?_of_isTail htail rest
    simpa [reference?] using hclosing

namespace IsReference

variable {name name' : String} {r r' rest rest' : List Char}

theorem reference?_eq (h : IsReference name r) (rest : List Char) :
    reference? (r ++ rest) = some (name, rest) :=
  reference?_eq_some_iff.mpr ⟨r, h, rfl⟩

theorem ne_nil (h : IsReference name r) : r ≠ [] := by
  obtain ⟨tail, rfl, -⟩ := h
  exact List.cons_ne_nil _ _

/-- Two references at the start of one text are the same. -/
theorem unique (h : IsReference name r) (h' : IsReference name' r')
    (heq : r ++ rest = r' ++ rest') : name = name' ∧ r = r' ∧ rest = rest' := by
  have hsame : some (name, rest) = some (name', rest') := by
    rw [← h.reference?_eq rest, heq, h'.reference?_eq rest']
  cases hsame
  exact ⟨rfl, List.append_cancel_right heq, rfl⟩

end IsReference

/-! ## No two references overlap -/

/-- After the opening braces there is no further one. -/
theorem ne_openBrace_of_mem_tail {name : String} {tail : List Char} (h : IsTail name tail)
    {c : Char} (hc : c ∈ tail) : c ≠ openBrace := by
  obtain ⟨before, after, rfl, hbefore, hafter, hname⟩ := h
  simp only [List.mem_append, List.mem_cons, List.not_mem_nil, or_false] at hc
  rcases hc with hc | hc | hc | rfl | rfl
  · exact ne_openBrace_of_isBlank (hbefore c hc)
  · exact ne_openBrace_of_isNameChar (hname.forall_isNameChar c hc)
  · exact ne_openBrace_of_isBlank (hafter c hc)
  · decide
  · decide

/-- **No reference begins inside another one.** -/
theorem reference?_append_of_isReference {name : String} {a b : List Char}
    (h : IsReference name (a ++ b)) (ha : a ≠ []) (hb : b ≠ []) (more : List Char) :
    reference? (b ++ more) = none := by
  obtain ⟨tail, heq, htail⟩ := h
  obtain ⟨c, b, rfl⟩ := List.exists_cons_of_ne_nil hb
  match a, ha with
  | [x], _ =>
    -- at the second brace, and what follows it is no brace
    simp only [List.singleton_append, List.cons.injEq] at heq
    obtain ⟨-, rfl, rfl⟩ := heq
    have hne : b ≠ [] := by
      obtain ⟨before, after, rfl, -⟩ := htail
      simp
    obtain ⟨d, b, rfl⟩ := List.exists_cons_of_ne_nil hne
    have hd : d ≠ openBrace := ne_openBrace_of_mem_tail htail (List.mem_cons_self ..)
    simp [reference?, hd]
  | x :: y :: a, _ =>
    simp only [List.cons_append, List.cons.injEq] at heq
    obtain ⟨-, -, rfl⟩ := heq
    have hc : c ≠ openBrace := ne_openBrace_of_mem_tail htail (by simp)
    exact reference?_of_ne hc _

/-! ## Cuts -/

/-- A part of a text: a character that stays, or a reference as it is written. -/
inductive Segment where
  | kept (c : Char)
  | reference (name : String) (r : List Char)

namespace Segment

/-- The part as it stands in the text. -/
def text : Segment → List Char
  | kept c => [c]
  | reference _ r => r

/-- The part without the wording of a reference. -/
def piece : Segment → Piece
  | kept c => .char c
  | reference name _ => .reference name

end Segment

/-- **A text cut at its references.**  Every occurrence of a reference in the text is one of the
segments, at its place. -/
structure IsCut (cs : List Char) (segments : List Segment) : Prop where
  text : segments.flatMap Segment.text = cs
  sound : ∀ name r, Segment.reference name r ∈ segments → IsReference name r
  complete : ∀ before r after name, cs = before ++ (r ++ after) → IsReference name r →
    ∃ xs ys, segments = xs ++ Segment.reference name r :: ys ∧
      xs.flatMap Segment.text = before ∧ ys.flatMap Segment.text = after

namespace IsCut

variable {cs r rest : List Char} {name : String} {c : Char} {segments : List Segment}

theorem nil : IsCut [] [] where
  text := rfl
  sound := fun _ _ h => nomatch h
  complete := by
    intro before r after name h hr
    have hnil := h.symm
    simp only [List.append_eq_nil_iff] at hnil
    exact absurd hnil.2.1 hr.ne_nil

/-- A reference at the start is a segment. -/
theorem reference (hr : IsReference name r) (h : IsCut rest segments) :
    IsCut (r ++ rest) (.reference name r :: segments) where
  text := by rw [List.flatMap_cons, h.text]; rfl
  sound := by
    intro name' r' hmem
    rcases List.mem_cons.mp hmem with heq | hmem
    · cases heq
      exact hr
    · exact h.sound name' r' hmem
  complete := by
    intro before r' after name' heq hr'
    by_cases hbefore : before = []
    · subst hbefore
      obtain ⟨rfl, rfl, rfl⟩ := hr.unique hr' heq
      exact ⟨[], segments, rfl, rfl, h.text⟩
    · -- the occurrence begins after the first reference, because it does not begin inside it
      rcases List.append_eq_append_iff.mp heq with ⟨gap, hgap, hrest⟩ | ⟨inside, hinside, hrest⟩
      · obtain ⟨xs, ys, rfl, hxs, hys⟩ := h.complete gap r' after name' hrest hr'
        refine ⟨.reference name r :: xs, ys, rfl, ?_, hys⟩
        rw [List.flatMap_cons, hxs, hgap]
        rfl
      · by_cases hnone : inside = []
        · subst hnone
          rw [List.append_nil] at hinside
          obtain ⟨xs, ys, rfl, hxs, hys⟩ := h.complete [] r' after name' hrest.symm hr'
          refine ⟨.reference name r :: xs, ys, rfl, ?_, hys⟩
          rw [List.flatMap_cons, hxs, hinside, List.append_nil]
          rfl
        · rw [hinside] at hr
          have hfound := hr'.reference?_eq after
          rw [hrest, reference?_append_of_isReference hr hbefore hnone rest] at hfound
          cases hfound

/-- A character at which no reference begins is a segment. -/
theorem kept (hc : reference? (c :: rest) = none) (h : IsCut rest segments) :
    IsCut (c :: rest) (.kept c :: segments) where
  text := by rw [List.flatMap_cons, h.text]; rfl
  sound := by
    intro name r hmem
    rcases List.mem_cons.mp hmem with heq | hmem
    · cases heq
    · exact h.sound name r hmem
  complete := by
    intro before r after name heq hr
    cases before with
    | nil =>
      have hfound := hr.reference?_eq after
      rw [List.nil_append] at heq
      rw [← heq, hc] at hfound
      cases hfound
    | cons d before =>
      obtain ⟨rfl, hrest⟩ := List.cons.inj heq
      obtain ⟨xs, ys, rfl, hxs, hys⟩ := h.complete before r after name hrest hr
      refine ⟨.kept c :: xs, ys, rfl, ?_, hys⟩
      rw [List.flatMap_cons, hxs]
      rfl

/-- No segment is empty. -/
theorem text_ne_nil {segment : Segment} (h : IsCut cs segments) (hmem : segment ∈ segments) :
    segment.text ≠ [] := by
  cases segment with
  | kept c => exact List.cons_ne_nil c []
  | reference name r => exact (h.sound name r hmem).ne_nil

/-- The rest of a text is cut where the text is. -/
theorem tail {first : Segment} (h : IsCut cs (first :: segments)) :
    IsCut (segments.flatMap Segment.text) segments where
  text := rfl
  sound := fun name r hmem => h.sound name r (List.mem_cons_of_mem _ hmem)
  complete := by
    intro before r after name heq hr
    have htext : cs = (first.text ++ before) ++ (r ++ after) := by
      rw [← h.text, List.flatMap_cons, heq, List.append_assoc]
    obtain ⟨xs, ys, hsegments, hxs, hys⟩ := h.complete _ r after name htext hr
    cases xs with
    | nil =>
      have hnil : first.text = [] := (List.append_eq_nil_iff.mp hxs.symm).1
      exact absurd hnil (h.text_ne_nil (List.mem_cons_self ..))
    | cons x xs =>
      obtain ⟨rfl, hrest⟩ := List.cons.inj hsegments
      rw [List.flatMap_cons] at hxs
      exact ⟨xs, ys, hrest, List.append_cancel_left hxs, hys⟩

/-- The first segment is a reference if there is one at the start. -/
theorem head_eq {first : Segment} (h : IsCut (r ++ rest) (first :: segments))
    (hr : IsReference name r) : first = .reference name r := by
  obtain ⟨xs, ys, hsegments, hxs, -⟩ := h.complete [] r rest name rfl hr
  cases xs with
  | nil => exact (List.cons.inj hsegments).1
  | cons x xs =>
    obtain ⟨rfl, -⟩ := List.cons.inj hsegments
    have hnil : first.text = [] := (List.append_eq_nil_iff.mp hxs).1
    exact absurd hnil (h.text_ne_nil (List.mem_cons_self ..))

theorem eq_nil_iff (h : IsCut cs segments) : segments = [] ↔ cs = [] := by
  constructor
  · rintro rfl
    exact h.text.symm
  · intro hcs
    cases segments with
    | nil => rfl
    | cons first segments =>
      have hnil := (List.append_eq_nil_iff.mp (h.text.trans hcs)).1
      exact absurd hnil (h.text_ne_nil (List.mem_cons_self ..))

/-- **There is one cut only.** -/
theorem unique {segments' : List Segment} (h : IsCut cs segments) (h' : IsCut cs segments') :
    segments = segments' := by
  induction segments generalizing cs segments' with
  | nil => exact (h'.eq_nil_iff.mpr (h.eq_nil_iff.mp rfl)).symm
  | cons first segments ih =>
    have hne : segments' ≠ [] := by
      intro hnil
      have hfirst := h.eq_nil_iff.mpr (h'.eq_nil_iff.mp hnil)
      cases hfirst
    obtain ⟨first', segments', rfl⟩ := List.exists_cons_of_ne_nil hne
    have htext : cs = first.text ++ segments.flatMap Segment.text := h.text.symm
    have htext' : cs = first'.text ++ segments'.flatMap Segment.text := h'.text.symm
    have hfirst : first = first' := by
      match first, first' with
      | .reference name r, _ =>
        rw [htext] at h'
        exact (h'.head_eq (h.sound name r (List.mem_cons_self ..))).symm
      | .kept c, .reference name r =>
        rw [htext'] at h
        exact h.head_eq (h'.sound name r (List.mem_cons_self ..))
      | .kept c, .kept c' =>
        rw [htext] at htext'
        exact congrArg Segment.kept (List.cons.inj htext').1
    subst hfirst
    rw [htext] at htext'
    have hrest := List.append_cancel_left htext'
    have htail' := h'.tail
    rw [← hrest] at htail'
    rw [ih h.tail htail']

end IsCut

/-- **The pieces that are read are a cut.** -/
theorem exists_isCut_pieces (cs : List Char) :
    ∃ segments, IsCut cs segments ∧ segments.map Segment.piece = pieces cs := by
  fun_induction pieces cs with
  | case1 cs name rest h ih =>
    obtain ⟨r, hr, rfl⟩ := reference?_eq_some_iff.mp h
    obtain ⟨segments, hcut, hpieces⟩ := ih
    exact ⟨.reference name r :: segments, hcut.reference hr, congrArg (_ :: ·) hpieces⟩
  | case2 h => exact ⟨[], .nil, rfl⟩
  | case3 c rest h ih =>
    obtain ⟨segments, hcut, hpieces⟩ := ih
    exact ⟨.kept c :: segments, hcut.kept h, congrArg (_ :: ·) hpieces⟩

/-- Every text is cut at its references in one way. -/
theorem existsUnique_isCut (cs : List Char) : ∃! segments, IsCut cs segments := by
  obtain ⟨segments, hcut, -⟩ := exists_isCut_pieces cs
  exact ⟨segments, hcut, fun _ h => h.unique hcut⟩

/-! ## Lone references -/

/-- A text is one reference between blanks where its trimmed text is one. -/
theorem lone?_eq_some_iff {s name : String} :
    lone? s = some name ↔ IsReference name (Text.trim s.toList) := by
  constructor
  · intro h
    have hfound := reference?_of_pieces (pieces_of_lone h)
    obtain ⟨r, hr, htext⟩ := reference?_eq_some_iff.mp hfound
    rw [htext, List.append_nil]
    exact hr
  · intro h
    have hfound := h.reference?_eq []
    rw [List.append_nil] at hfound
    rw [lone?, pieces_of_reference? hfound, pieces]
    rfl

end HttpSuite.Template
