import HttpSuite.Proofs.Actions
import HttpSuite.Registry
import Mathlib

/-!
# Streams in closed form

`Stream.after` is a stream after a number of pulls, and `Stream.nth` is what the pull of a number
gives, where the first pull has number zero.  Both are computed here without pulling.

## Numbers

A running sequence stops at the limits of 64 bits in every step.  That comes to the same as adding
up without limits and stopping once at the end, because all steps go one way: beyond a limit no step
leads back (`Generator.clamp_clamp_add`).  So numbers never wrap round and never turn, and a limit
that was reached by a step is kept (`Stream.pulls_saturate`).  Only a sequence that starts at a limit
can leave it, if its increment leads away.

## Lists

The position in a list never exceeds its length.  For a list that is given over and over the
position is the number of pulls up to multiples of the length, which is the invariant that carries
`Stream.pulls_replay`: each pull keeps it, also the one that goes back to the beginning.
-/

namespace HttpSuite

/-! ## Pulls -/

/-- The stream after a number of pulls. -/
def Stream.after (env : Environment) (pulls : Nat) (s : Stream) : Stream :=
  (fun s => (s.pull env).2)^[pulls] s

/-- What the pull of a number gives; the first one has number zero. -/
def Stream.nth (env : Environment) (n : Nat) (s : Stream) : Except GeneratorError Value :=
  ((s.after env n).pull env).1

namespace Stream

variable (env : Environment) (s : Stream)

theorem after_zero : s.after env 0 = s := Function.iterate_zero_apply _ s

theorem after_one : s.after env 1 = (s.pull env).2 := congrFun (Function.iterate_one _) s

theorem after_succ (n : Nat) : s.after env (n + 1) = ((s.after env n).pull env).2 :=
  Function.iterate_succ_apply' _ n s

theorem after_after (pulls more : Nat) : (s.after env pulls).after env more =
    s.after env (pulls + more) := by
  rw [after, after, after, Nat.add_comm, Function.iterate_add_apply]

end Stream

/-! ## Numbers of 64 bits -/

namespace Number

/-- The integers of 64 bits with a sign. -/
def IsSigned (i : Int) : Prop := minInt ≤ i ∧ i ≤ maxInt

/-- The first or the last integer of 64 bits with a sign. -/
def IsLimit (i : Int) : Prop := i = minInt ∨ i = maxInt

instance (i : Int) : Decidable (IsSigned i) := inferInstanceAs (Decidable (_ ∧ _))

instance (i : Int) : Decidable (IsLimit i) := inferInstanceAs (Decidable (_ ∨ _))

theorem minInt_eq : minInt = -2 ^ 63 := rfl

theorem maxInt_eq : maxInt = 2 ^ 63 - 1 := rfl

end Number

namespace Generator

open Number

variable {x y : Int}

theorem clamp_of_isSigned (h : IsSigned x) : clamp x = x := by
  obtain ⟨hlow, hhigh⟩ := h
  unfold clamp
  omega

theorem isSigned_clamp (i : Int) : IsSigned (clamp i) := by
  have hmin := minInt_eq
  have hmax := maxInt_eq
  unfold IsSigned clamp
  omega

theorem clamp_mono (h : x ≤ y) : clamp x ≤ clamp y := by
  unfold clamp
  omega

theorem clamp_eq_maxInt_iff : clamp x = maxInt ↔ maxInt ≤ x := by
  have hmin := minInt_eq
  have hmax := maxInt_eq
  unfold clamp
  omega

theorem clamp_eq_minInt_iff : clamp x = minInt ↔ x ≤ minInt := by
  have hmin := minInt_eq
  have hmax := maxInt_eq
  unfold clamp
  omega

/-- **Stopping at a limit in between changes nothing**, unless the next step leads back from it. -/
theorem clamp_clamp_add (hup : maxInt < x → 0 ≤ y) (hdown : x < minInt → y ≤ 0) :
    clamp (clamp x + y) = clamp (x + y) := by
  have hmin := minInt_eq
  have hmax := maxInt_eq
  unfold clamp
  omega

/-- Doubling never leads back from a limit. -/
theorem clamp_clamp_mul_two (x : Int) : clamp (clamp x * 2) = clamp (x * 2) := by
  have hmin := minInt_eq
  have hmax := maxInt_eq
  unfold clamp
  omega

end Generator

namespace Stream

open Generator Number

variable {start increment : Int} {env : Environment} {f : Nat → Int} {m n : Nat}

/-! ## Sequences and doubling -/

theorem after_sequence (hstart : IsSigned start) (increment : Int) (env : Environment) (n : Nat) :
    (sequence start increment).after env n =
      sequence (clamp (start + n * increment)) increment := by
  induction n with
  | zero => rw [after_zero, Int.natCast_zero, Int.zero_mul, Int.add_zero, clamp_of_isSigned hstart]
  | succ n ih =>
    obtain ⟨hlow, hhigh⟩ := hstart
    -- the sum has left the range only where the increment leads
    have hup : maxInt < start + n * increment → 0 ≤ increment := by
      intro hbeyond
      by_contra hnot
      have hmul := Int.mul_nonpos_of_nonneg_of_nonpos (Int.natCast_nonneg n)
        (Int.le_of_lt (Int.not_le.mp hnot))
      omega
    have hdown : start + n * increment < minInt → increment ≤ 0 := by
      intro hbeyond
      by_contra hnot
      have hmul := Int.mul_nonneg (Int.natCast_nonneg n) (Int.le_of_lt (Int.not_le.mp hnot))
      omega
    have hsum : start + (n + 1 : Nat) * increment = start + n * increment + increment := by
      rw [Int.natCast_succ, Int.add_mul, Int.one_mul, Int.add_assoc]
    rw [after_succ, ih, hsum, ← clamp_clamp_add hup hdown]
    rfl

theorem after_doubling (hstart : IsSigned start) (env : Environment) (n : Nat) :
    (doubling start).after env n = doubling (clamp (start * 2 ^ n)) := by
  induction n with
  | zero => rw [after_zero, Int.pow_zero, Int.mul_one, clamp_of_isSigned hstart]
  | succ n ih =>
    rw [after_succ, ih, Int.pow_succ, ← Int.mul_assoc, ← clamp_clamp_mul_two]
    rfl

/-- Pulls succeed with the values of a function, which are of 64 bits and go one way only. -/
structure GivesSteadily (env : Environment) (s : Stream) (f : Nat → Int) : Prop where
  succeeds : ∀ n, s.nth env n = .ok (.int (f n))
  inRange : ∀ n, IsSigned (f n)
  oneWay : Monotone f ∨ Antitone f

theorem monotone_sequence (start : Int) (h : 0 ≤ increment) :
    Monotone fun n : Nat => clamp (start + n * increment) := by
  intro m n hmn
  refine clamp_mono (Int.add_le_add_left (Int.mul_le_mul_of_nonneg_right ?_ h) _)
  exact Int.ofNat_le.mpr hmn

theorem antitone_sequence (start : Int) (h : increment ≤ 0) :
    Antitone fun n : Nat => clamp (start + n * increment) := by
  intro m n hmn
  refine clamp_mono (Int.add_le_add_left (Int.mul_le_mul_of_nonpos_right ?_ h) _)
  exact Int.ofNat_le.mpr hmn

theorem monotone_doubling (h : 0 ≤ start) : Monotone fun n : Nat => clamp (start * 2 ^ n) := by
  refine monotone_nat_of_le_succ fun n => clamp_mono ?_
  have hpow : 0 < (2 : Int) ^ n := Int.pow_pos (by decide)
  have hnonneg := Int.mul_nonneg h (Int.le_of_lt hpow)
  rw [Int.pow_succ, ← Int.mul_assoc]
  omega

theorem antitone_doubling (h : start ≤ 0) : Antitone fun n : Nat => clamp (start * 2 ^ n) := by
  refine antitone_nat_of_succ_le fun n => clamp_mono ?_
  have hpow : 0 < (2 : Int) ^ n := Int.pow_pos (by decide)
  have hnonpos := Int.mul_nonpos_of_nonpos_of_nonneg h (Int.le_of_lt hpow)
  rw [Int.pow_succ, ← Int.mul_assoc]
  omega

theorem givesSteadily_sequence (hstart : IsSigned start) (increment : Int) (env : Environment) :
    (Generator.sequence start increment).start.GivesSteadily env
      fun n => clamp (start + n * increment) where
  succeeds := fun n => by
    rw [Generator.start, nth, after_sequence hstart]
    rfl
  inRange := fun n => isSigned_clamp _
  oneWay := (Int.le_total 0 increment).imp (monotone_sequence start) (antitone_sequence start)

theorem givesSteadily_doubling (hstart : IsSigned start) (env : Environment) :
    (Generator.doubling start).start.GivesSteadily env fun n => clamp (start * 2 ^ n) where
  succeeds := fun n => by
    rw [Generator.start, nth, after_doubling hstart]
    rfl
  inRange := fun n => isSigned_clamp _
  oneWay := (Int.le_total 0 start).imp monotone_doubling antitone_doubling

/-! ## At a limit -/

/-- The start is a limit, and the increment leads away from it. -/
def LeadsAway (start increment : Int) : Prop :=
  start = maxInt ∧ increment < 0 ∨ start = minInt ∧ 0 < increment

theorem eq_of_monotone (hf : Monotone f) (hrange : ∀ n, IsSigned (f n)) (hn : f n = maxInt)
    (h : n ≤ m) : f m = f n :=
  Int.le_antisymm (hn ▸ (hrange m).2) (hf h)

theorem eq_of_antitone (hf : Antitone f) (hrange : ∀ n, IsSigned (f n)) (hn : f n = minInt)
    (h : n ≤ m) : f m = f n :=
  Int.le_antisymm (hf h) (hn ▸ (hrange m).1)

/-- The first number is kept by going down, unless the sequence has only just started there. -/
theorem nonpos_of_clamp_eq_minInt (hstart : IsSigned start)
    (hlimit : clamp (start + n * increment) = minInt)
    (hnot : ¬ (n = 0 ∧ LeadsAway start increment)) : increment ≤ 0 := by
  have hle := clamp_eq_minInt_iff.mp hlimit
  by_contra hup
  rw [Int.not_le] at hup
  have hmul := Int.mul_nonneg (Int.natCast_nonneg n) (Int.le_of_lt hup)
  obtain ⟨hlow, -⟩ := hstart
  -- nothing was added, and so the start is the limit
  have hzero : (n : Int) * increment = 0 := by omega
  rcases Int.mul_eq_zero.mp hzero with hn | hinc
  · exact hnot ⟨Int.natCast_eq_zero.mp hn, .inr ⟨by omega, hup⟩⟩
  · exact absurd hinc (Int.ne_of_gt hup)

/-- The last number is kept by going up, unless the sequence has only just started there. -/
theorem nonneg_of_clamp_eq_maxInt (hstart : IsSigned start)
    (hlimit : clamp (start + n * increment) = maxInt)
    (hnot : ¬ (n = 0 ∧ LeadsAway start increment)) : 0 ≤ increment := by
  have hle := clamp_eq_maxInt_iff.mp hlimit
  by_contra hdown
  rw [Int.not_le] at hdown
  have hmul := Int.mul_nonpos_of_nonneg_of_nonpos (Int.natCast_nonneg n) (Int.le_of_lt hdown)
  obtain ⟨-, hhigh⟩ := hstart
  have hzero : (n : Int) * increment = 0 := by omega
  rcases Int.mul_eq_zero.mp hzero with hn | hinc
  · exact hnot ⟨Int.natCast_eq_zero.mp hn, .inl ⟨by omega, hdown⟩⟩
  · exact absurd hinc (Int.ne_of_lt hdown)

/-- **A sequence leaves a limit only at its start, and only if the increment leads away.** -/
theorem sequence_stays_iff (hstart : IsSigned start)
    (hlimit : IsLimit (clamp (start + n * increment))) :
    (∀ m : Nat, n ≤ m → clamp (start + m * increment) = clamp (start + n * increment)) ↔
      ¬ (n = 0 ∧ LeadsAway start increment) := by
  constructor
  · rintro h ⟨rfl, haway⟩
    have hmin := minInt_eq
    have hmax := maxInt_eq
    have hone := h 1 (Nat.zero_le 1)
    rw [Int.natCast_zero, Int.zero_mul, Int.natCast_one, Int.one_mul] at hone
    unfold clamp at hone
    unfold LeadsAway at haway
    omega
  · intro hnot m hnm
    rcases hlimit with hlimit | hlimit
    · have hinc := nonpos_of_clamp_eq_minInt hstart hlimit hnot
      exact eq_of_antitone (antitone_sequence start hinc) (fun _ => isSigned_clamp _) hlimit hnm
    · have hinc := nonneg_of_clamp_eq_maxInt hstart hlimit hnot
      exact eq_of_monotone (monotone_sequence start hinc) (fun _ => isSigned_clamp _) hlimit hnm

/-- Doubling never leaves a limit. -/
theorem doubling_stays (hlimit : IsLimit (clamp (start * 2 ^ n))) (h : n ≤ m) :
    clamp (start * 2 ^ m) = clamp (start * 2 ^ n) := by
  have hmin := minInt_eq
  have hmax := maxInt_eq
  have hpow : 0 ≤ (2 : Int) ^ n := Int.le_of_lt (Int.pow_pos (by decide))
  rcases hlimit with hlimit | hlimit
  · have hneg : start ≤ 0 := by
      by_contra hnot
      have hle := clamp_eq_minInt_iff.mp hlimit
      have hmul := Int.mul_nonneg (Int.le_of_lt (Int.not_le.mp hnot)) hpow
      omega
    exact eq_of_antitone (antitone_doubling hneg) (fun _ => isSigned_clamp _) hlimit h
  · have hpos : 0 ≤ start := by
      by_contra hnot
      have hle := clamp_eq_maxInt_iff.mp hlimit
      have hmul := Int.mul_nonpos_of_nonpos_of_nonneg (Int.le_of_lt (Int.not_le.mp hnot)) hpow
      omega
    exact eq_of_monotone (monotone_doubling hpos) (fun _ => isSigned_clamp _) hlimit h

/-- **What numbers are pulled.**  The pull of number `n` gives `start + n * increment`, or for
doubling `start * 2 ^ n`, or the limit of the signed 64-bit range that lies before it.  So the
values stay in range and go one way.  Once at a limit they stay there, except that a sequence leaves
a limit that it starts at if its increment leads away from it. -/
theorem pulls_saturate (hstart : IsSigned start) (increment : Int) (env : Environment) :
    let f : Nat → Int := fun n => max (-2 ^ 63) (min (2 ^ 63 - 1) (start + n * increment))
    let g : Nat → Int := fun n => max (-2 ^ 63) (min (2 ^ 63 - 1) (start * 2 ^ n))
    (Generator.sequence start increment).start.GivesSteadily env f ∧
      (∀ n, IsLimit (f n) →
        ((∀ m, n ≤ m → f m = f n) ↔ ¬ (n = 0 ∧ LeadsAway start increment))) ∧
      (Generator.doubling start).start.GivesSteadily env g ∧
      ∀ n, IsLimit (g n) → ∀ m, n ≤ m → g m = g n :=
  ⟨givesSteadily_sequence hstart increment env, fun _ => sequence_stays_iff hstart,
    givesSteadily_doubling hstart env, fun _ hlimit _ => doubling_stays hlimit⟩

/-- Two steps below the last number, and the first number itself. -/
theorem pulls_saturate_near_limits :
    (∀ n, 0 < n → (Generator.sequence (maxInt - 2) 2).start.nth [] n = .ok (.int maxInt)) ∧
      ∀ n, (Generator.doubling minInt).start.nth [] n = .ok (.int minInt) := by
  have hbelow : IsSigned (maxInt - 2) := by decide
  have hfirst : IsSigned minInt := by decide
  obtain ⟨hsteady, hstays, -, -⟩ := pulls_saturate hbelow 2 []
  obtain ⟨-, -, hdoubling, hkept⟩ := pulls_saturate hfirst 0 []
  refine ⟨fun n hn => ?_, fun n => ?_⟩
  · have hkeeps : _ = maxInt := (hstays 1 (by decide)).mpr (fun h => absurd h.1 (by decide)) n hn
    exact (hsteady.succeeds n).trans (congrArg (Except.ok ∘ Value.int) hkeeps)
  · have hkeeps : _ = minInt := hkept 0 (by decide) n (Nat.zero_le n)
    exact (hdoubling.succeeds n).trans (congrArg (Except.ok ∘ Value.int) hkeeps)

/-- A sequence that starts at the last number and goes down is at a limit and does not stay. -/
theorem sequence_leaves_limit :
    let s := (Generator.sequence maxInt (-1)).start
    IsSigned maxInt ∧ IsLimit maxInt ∧ s.nth [] 0 = .ok (.int maxInt) ∧
      s.nth [] 1 = .ok (.int (maxInt - 1)) ∧
      ¬ ∀ n m v w, n ≤ m → s.nth [] n = .ok (.int v) → IsLimit v → s.nth [] m = .ok (.int w) →
        w = v := by
  intro s
  have hlast : s.nth [] 0 = .ok (.int maxInt) := rfl
  have hnext : s.nth [] 1 = .ok (.int (maxInt - 1)) := rfl
  refine ⟨by decide, by decide, hlast, hnext, fun h => ?_⟩
  have heq := h 0 1 maxInt (maxInt - 1) (Nat.zero_le 1) hlast (.inr rfl) hnext
  omega

/-! ## Lists -/

section Lists

variable {values : List Value} {p : Nat}

theorem pull_fixed_of_lt {v : Value} (h : values[p]? = some v) (env : Environment) :
    (fixed values p).pull env = (.ok v, fixed values (p + 1)) := by
  rw [pull, h]

theorem pull_fixed_of_le (h : values.length ≤ p) (env : Environment) :
    (fixed values p).pull env = (.error (.exhausted p), fixed values p) := by
  rw [pull, List.getElem?_eq_none h]

/-- The position is that of the next value, and at the end it is the length. -/
theorem after_fixed (values : List Value) (env : Environment) (n : Nat) :
    (fixed values 0).after env n = fixed values (min n values.length) := by
  induction n with
  | zero => rw [after_zero, Nat.zero_min]
  | succ n ih =>
    rw [after_succ, ih]
    rcases Nat.lt_or_ge n values.length with hlt | hge
    · rw [Nat.min_eq_left (Nat.le_of_lt hlt), Nat.min_eq_left hlt,
        pull_fixed_of_lt (List.getElem?_eq_getElem hlt)]
    · rw [Nat.min_eq_right hge, Nat.min_eq_right (Nat.le_succ_of_le hge),
        pull_fixed_of_le (Nat.le_refl _)]

theorem nth_fixed_of_lt {v : Value} (h : values[n]? = some v) (env : Environment) :
    (fixed values 0).nth env n = .ok v := by
  obtain ⟨hlt, -⟩ := List.getElem?_eq_some_iff.mp h
  rw [nth, after_fixed, Nat.min_eq_left (Nat.le_of_lt hlt), pull_fixed_of_lt h]

theorem nth_fixed_of_le (h : values.length ≤ n) (env : Environment) :
    (fixed values 0).nth env n = .error (.exhausted values.length) := by
  rw [nth, after_fixed, Nat.min_eq_right h, pull_fixed_of_le (Nat.le_refl _)]

/-- **A pull reads inside the list**, at the end at its beginning. -/
theorem pull_cycle (hpos : 0 < values.length) (hp : p ≤ values.length) (env : Environment) :
    ∃ v, values[p % values.length]? = some v ∧
      (cycle values p).pull env = (.ok v, cycle values (p % values.length + 1)) := by
  rcases Nat.lt_or_eq_of_le hp with hlt | rfl
  · have hread := List.getElem?_eq_getElem hlt
    refine ⟨values[p], ?_, ?_⟩
    · rw [Nat.mod_eq_of_lt hlt, hread]
    · simp only [pull, hread, Nat.mod_eq_of_lt hlt]
  · cases values with
    | nil => exact absurd hpos (Nat.lt_irrefl 0)
    | cons v rest =>
      refine ⟨v, ?_, ?_⟩
      · rw [Nat.mod_self, List.getElem?_cons_zero]
      · simp only [pull, List.getElem?_length, Nat.mod_self]

/-- The position stays inside the list and counts the pulls up to multiples of the length. -/
theorem after_cycle (hpos : 0 < values.length) (env : Environment) (n : Nat) :
    ∃ p ≤ values.length, p % values.length = n % values.length ∧
      (cycle values 0).after env n = cycle values p := by
  induction n with
  | zero => exact ⟨0, Nat.zero_le _, rfl, after_zero env _⟩
  | succ n ih =>
    obtain ⟨p, hp, hmod, hafter⟩ := ih
    obtain ⟨v, -, hpull⟩ := pull_cycle hpos hp env
    refine ⟨p % values.length + 1, Nat.mod_lt p hpos, ?_, ?_⟩
    · rw [hmod, Nat.mod_add_mod]
    · rw [after_succ, hafter, hpull]

theorem nth_cycle (hpos : 0 < values.length) (env : Environment) (n : Nat) :
    ∃ v, values[n % values.length]? = some v ∧ (cycle values 0).nth env n = .ok v := by
  obtain ⟨p, hp, hmod, hafter⟩ := after_cycle hpos env n
  obtain ⟨v, hread, hpull⟩ := pull_cycle hpos hp env
  refine ⟨v, hmod ▸ hread, ?_⟩
  rw [nth, hafter, hpull]

end Lists

end Stream

/-! ## Declared lists -/

namespace GeneratorKind

variable {config : Value} {bindings : Mapping} {g : Generator}

/-- What the kinds that give the values of a list make of it. -/
def ofList? : GeneratorKind → Option (List Value → Generator)
  | fixed => some .fixed
  | cycle => some .cycle
  | _ => none

/-- The list of a configuration whose references are replaced. -/
def HasValues (config : Value) (bindings : Mapping) (values : List Value) : Prop :=
  ∃ fields, ({ Context.empty [] with bindings := bindings }).resolveBound config =
    .ok (.object fields) ∧ Entries.get? "values" fields = some (.array values)

theorem valuesOf_eq_ok {kind : GeneratorKind} {fields : Mapping} {values : List Value}
    (h : valuesOf kind fields = .ok values) :
    Entries.get? "values" fields = some (.array values) ∧ 0 < values.length := by
  unfold valuesOf at h
  split at h
  · cases h
  · rename_i hnonempty hvalues
    cases h
    exact ⟨hvalues, List.length_pos_iff.mpr hnonempty⟩
  · cases h

theorem declare_eq {kind : GeneratorKind} (h : kind ≠ environmentText) (config : Value)
    (bindings : Mapping) : kind.declare config bindings =
      (({ Context.empty [] with bindings := bindings }).resolveBound config).mapError .template >>=
        fun config => kind.mappingOf config >>= kind.build := by
  unfold declare
  rw [if_neg h]

/-- A configuration that is accepted has a list, and it is not empty. -/
theorem exists_values {kind : GeneratorKind} {make : List Value → Generator}
    (hkind : kind.ofList? = some make) (h : kind.declare config bindings = .ok g) :
    ∃ values, g = make values ∧ HasValues config bindings values ∧ 0 < values.length := by
  have hreferences : kind ≠ environmentText := by
    rintro rfl
    cases hkind
  rw [declare_eq hreferences] at h
  obtain ⟨resolved, hresolved, h⟩ := Except.eq_ok_of_bind h
  obtain ⟨fields, hfields, h⟩ := Except.eq_ok_of_bind h
  have hobject : resolved = .object fields := by
    unfold mappingOf at hfields
    split at hfields
    · cases hfields
      rfl
    · cases hfields
  subst hobject
  cases kind with
  | fixed | cycle =>
    cases hkind
    obtain ⟨values, hvalues, rfl⟩ := Except.eq_ok_of_map h
    obtain ⟨hlist, hlength⟩ := valuesOf_eq_ok hvalues
    exact ⟨values, rfl, ⟨fields, Except.eq_ok_of_mapError hresolved, hlist⟩, hlength⟩
  | sequence | doubling | environmentVariable | environmentText => cases hkind

/-- **What lists are pulled.**  An accepted list is not empty.  A fixed sequence gives its values in
order, and from then on every pull says that the generator is exhausted after as many values as the
list has.  A choice sequence gives its values over and over and never fails.  What is read stands
inside the list, and no number of pulls brings the position beyond its end. -/
theorem pulls_replay (config : Value) (bindings : Mapping) (env : Environment) :
    (∀ g, fixed.declare config bindings = .ok g →
      ∃ values, g = .fixed values ∧ HasValues config bindings values ∧ 0 < values.length ∧
        (∀ n, n < values.length → ∃ v, values[n]? = some v ∧ g.start.nth env n = .ok v) ∧
        (∀ n, values.length ≤ n → g.start.nth env n = .error (.exhausted values.length)) ∧
        ∀ n, ∃ p ≤ values.length, g.start.after env n = .fixed values p) ∧
    ∀ g, cycle.declare config bindings = .ok g →
      ∃ values, g = .cycle values ∧ HasValues config bindings values ∧ 0 < values.length ∧
        (∀ n, ∃ v, values[n % values.length]? = some v ∧ g.start.nth env n = .ok v) ∧
        ∀ n, ∃ p ≤ values.length, p % values.length = n % values.length ∧
          g.start.after env n = .cycle values p := by
  constructor
  · intro g h
    obtain ⟨values, rfl, hvalues, hpos⟩ := exists_values rfl h
    refine ⟨values, rfl, hvalues, hpos, fun n hn => ?_, fun n hn => Stream.nth_fixed_of_le hn env,
      fun n => ⟨_, Nat.min_le_right n _, Stream.after_fixed values env n⟩⟩
    have hread := List.getElem?_eq_getElem hn
    exact ⟨_, hread, Stream.nth_fixed_of_lt hread env⟩
  · intro g h
    obtain ⟨values, rfl, hvalues, hpos⟩ := exists_values rfl h
    exact ⟨values, rfl, hvalues, hpos, Stream.nth_cycle hpos env, Stream.after_cycle hpos env⟩

/-- Three values, the first one by reference. -/
def choices : Value := .object [("values", .array [.string "{{first}}", .int 2, .null])]

/-- The values are pulled with the reference replaced, and what a thousand pulls come to. -/
theorem pulls_replay_choices :
    let values : List Value := [.int 1, .int 2, .null]
    fixed.declare choices [("first", .int 1)] = .ok (.fixed values) ∧
      cycle.declare choices [("first", .int 1)] = .ok (.cycle values) ∧
      (Generator.fixed values).start.nth [] 2 = .ok .null ∧
      (Generator.fixed values).start.nth [] 1000 = .error (.exhausted 3) ∧
      (Generator.cycle values).start.nth [] 1000 = .ok (.int 2) := by
  intro values
  have hfixed : fixed.declare choices [("first", .int 1)] = .ok (.fixed values) := by cbv
  have hcycle : cycle.declare choices [("first", .int 1)] = .ok (.cycle values) := by cbv
  obtain ⟨hreplays, hrepeats⟩ := pulls_replay choices [("first", .int 1)] []
  obtain ⟨_, hlist, -, -, hgives, hexhausted, -⟩ := hreplays _ hfixed
  obtain rfl := Generator.fixed.inj hlist
  obtain ⟨_, hlist, -, -, hgivesAgain, -⟩ := hrepeats _ hcycle
  obtain rfl := Generator.cycle.inj hlist
  obtain ⟨v, hv, hthird⟩ := hgives 2 (by decide)
  obtain rfl : Value.null = v := Option.some.inj hv
  obtain ⟨w, hw, hagain⟩ := hgivesAgain 1000
  rw [show 1000 % values.length = 1 by decide] at hw
  obtain rfl : Value.int 2 = w := Option.some.inj hw
  exact ⟨hfixed, hcycle, hthird, hexhausted 1000 (by decide), hagain⟩

end GeneratorKind

end HttpSuite
