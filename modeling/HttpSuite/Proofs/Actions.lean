import Mathlib.Data.List.Forall2

/-!
# Actions that may fail

An action that may fail and keeps a state is done part after part: a part that fails ends it, with
the state that the part left.
-/

namespace HttpSuite

variable {ε ε' s α β : Type}

theorem Except.eq_ok_of_bind {x : Except ε α} {f : α → Except ε β} {b : β}
    (h : (x >>= f) = .ok b) : ∃ a, x = .ok a ∧ f a = .ok b := by
  cases x with
  | ok a => exact ⟨a, rfl, h⟩
  | error e => cases h

theorem Except.eq_ok_of_map {x : Except ε α} {f : α → β} {b : β} (h : x.map f = .ok b) :
    ∃ a, x = .ok a ∧ f a = b := by
  cases x with
  | ok a =>
    cases h
    exact ⟨a, rfl, rfl⟩
  | error e => cases h

theorem Except.eq_ok_of_toOption {x : Except ε α} {a : α} (h : x.toOption = some a) :
    x = .ok a := by
  cases x with
  | ok b =>
    cases h
    rfl
  | error e => cases h

theorem Except.exists_ok_of_isSome {x : Except ε α} (h : x.toOption.isSome = true) :
    ∃ a, x = .ok a := by
  obtain ⟨a, ha⟩ := Option.isSome_iff_exists.mp h
  exact ⟨a, eq_ok_of_toOption ha⟩

theorem Except.eq_error_of_bind {x : Except ε α} {f : α → Except ε β} {e : ε}
    (h : (x >>= f) = .error e) : x = .error e ∨ ∃ a, x = .ok a ∧ f a = .error e := by
  cases x with
  | ok a => exact .inr ⟨a, rfl, h⟩
  | error e =>
    cases h
    exact .inl rfl

theorem Except.bind_congr {x : Except ε α} {f g : α → Except ε β}
    (h : ∀ a, x = .ok a → f a = g a) : x >>= f = x >>= g := by
  cases x with
  | ok a => exact h a rfl
  | error e => rfl

theorem Except.eq_ok_of_mapError {x : Except ε α} {g : ε → ε'} {a : α}
    (h : x.mapError g = .ok a) : x = .ok a := by
  cases x with
  | ok b =>
    cases h
    rfl
  | error e => cases h

theorem Except.eq_error_of_mapError {x : Except ε α} {g : ε → ε'} {e' : ε'}
    (h : x.mapError g = .error e') : ∃ e, x = .error e ∧ e' = g e := by
  cases x with
  | ok a => cases h
  | error e =>
    cases h
    exact ⟨e, rfl, rfl⟩

/-- Actions that all succeed, with what each of them gives. -/
theorem mapM_eq_ok_iff {f : α → Except ε β} {xs : List α} {ys : List β} :
    xs.mapM f = .ok ys ↔ List.Forall₂ (fun x y => f x = .ok y) xs ys := by
  induction xs generalizing ys with
  | nil =>
    rw [List.mapM_nil]
    constructor
    · intro h
      cases h
      exact .nil
    · intro h
      cases h
      rfl
  | cons x xs ih =>
    rw [List.mapM_cons]
    constructor
    · intro h
      obtain ⟨y, hy, h⟩ := Except.eq_ok_of_bind h
      obtain ⟨rest, hrest, h⟩ := Except.eq_ok_of_bind h
      cases h
      exact .cons hy (ih.mp hrest)
    · intro h
      cases h with
      | cons hy hrest =>
        rw [hy, ih.mpr hrest]
        rfl

/-- Options that are all there, with what each of them holds. -/
theorem mapM_eq_some_iff {f : α → Option β} {xs : List α} {ys : List β} :
    xs.mapM f = some ys ↔ List.Forall₂ (fun x y => f x = some y) xs ys := by
  induction xs generalizing ys with
  | nil =>
    rw [List.mapM_nil]
    constructor
    · intro h
      cases h
      exact .nil
    · intro h
      cases h
      rfl
  | cons x xs ih =>
    rw [List.mapM_cons]
    constructor
    · intro h
      obtain ⟨y, hy, h⟩ := Option.bind_eq_some_iff.mp h
      obtain ⟨rest, hrest, h⟩ := Option.bind_eq_some_iff.mp h
      cases h
      exact .cons hy (ih.mp hrest)
    · intro h
      cases h with
      | cons hy hrest =>
        rw [hy, ih.mpr hrest]
        rfl

/-- What is on the right of a list of pairs has its own on the left. -/
theorem exists_left_of_forall₂ {R : α → β → Prop} {xs : List α} {ys : List β}
    (h : List.Forall₂ R xs ys) {y : β} (hy : y ∈ ys) : ∃ x ∈ xs, R x y := by
  induction h with
  | nil => exact nomatch hy
  | @cons x y' xs ys hxy _ ih =>
    rcases List.mem_cons.mp hy with rfl | hy
    · exact ⟨x, List.mem_cons_self .., hxy⟩
    · obtain ⟨z, hz, hzy⟩ := ih hy
      exact ⟨z, List.mem_cons_of_mem _ hz, hzy⟩

/-- Options of which one is not there. -/
theorem mapM_eq_none_of_mem {f : α → Option β} {xs : List α} {x : α} (hx : x ∈ xs)
    (h : f x = none) : xs.mapM f = none := by
  refine Option.eq_none_iff_forall_ne_some.mpr fun ys hys => ?_
  obtain ⟨y, -, hy⟩ := exists_left_of_forall₂ (mapM_eq_some_iff.mp hys).flip hx
  cases h.symm.trans hy

/-- What actions that all succeed give is given by one of them. -/
theorem exists_of_mem_mapM {f : α → Except ε β} {xs : List α} {ys : List β} {y : β}
    (h : xs.mapM f = .ok ys) (hy : y ∈ ys) : ∃ x ∈ xs, f x = .ok y :=
  exists_left_of_forall₂ (mapM_eq_ok_iff.mp h) hy

/-- Actions of which each succeeds all succeed. -/
theorem exists_mapM {f : α → Except ε β} {xs : List α} (h : ∀ x ∈ xs, ∃ y, f x = .ok y) :
    ∃ ys, xs.mapM f = .ok ys := by
  induction xs with
  | nil => exact ⟨[], rfl⟩
  | cons x xs ih =>
    obtain ⟨y, hy⟩ := h x (List.mem_cons_self ..)
    obtain ⟨ys, hys⟩ := ih fun z hz => h z (List.mem_cons_of_mem _ hz)
    rw [List.mapM_cons, hy, hys]
    exact ⟨y :: ys, rfl⟩

/-- Where a fold succeeds, so does each of its steps. -/
theorem Except.exists_of_foldlM {f : α → β → Except ε α} {items : List β} {a c : α} {b : β}
    (h : items.foldlM f a = .ok c) (hb : b ∈ items) : ∃ a₀ a₁, f a₀ b = .ok a₁ := by
  induction items generalizing a with
  | nil => cases hb
  | cons item items ih =>
    rw [List.foldlM_cons] at h
    obtain ⟨a₁, hitem, h⟩ := Except.eq_ok_of_bind h
    rcases List.mem_cons.mp hb with rfl | hb
    · exact ⟨a, a₁, hitem⟩
    · exact ih h hb

namespace ExceptT

variable (p : ExceptT ε (StateM s) α) (q : α → ExceptT ε (StateM s) β) (c : s)

theorem run_run_bind :
    (p >>= q).run.run c =
      match p.run.run c with
      | (.ok a, d) => (q a).run.run d
      | (.error e, d) => (.error e, d) := by
  change (ExceptT.bindCont q (p.run.run c).1).run (p.run.run c).2 = _
  rcases p.run.run c with ⟨_ | _, _⟩ <;> rfl

variable {p q c}

theorem eq_ok_of_bind {b : β} {d : s} (h : (p >>= q).run.run c = (.ok b, d)) :
    ∃ a e, p.run.run c = (.ok a, e) ∧ (q a).run.run e = (.ok b, d) := by
  rw [run_run_bind] at h
  rcases hp : p.run.run c with ⟨_ | a, e⟩
  · rw [hp] at h
    cases h
  · rw [hp] at h
    exact ⟨a, e, rfl, h⟩

end ExceptT

end HttpSuite
