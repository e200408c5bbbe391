import HttpSuite.Proofs.Run.Interleaving
import Mathlib.Algebra.GroupWithZero.Nat

/-!
# Programs side by side come to their end

A program runs `Within` a number of instants when that many are enough whatever the replies are: one
for each pause, and for an exchange one for each attempt and one for each pause between two.  A
thread in which something happens uses up one of its instants (`Program.Thread.within_advance_lt`),
and no thread gets more.  So time moves on at most as often as all threads together may take, and
after that none waits any more, unless one has broken off (`Program.over_finishAll`).

With `Program.AllLead.interleaving` this gives `Program.together_eq`: programs side by side come to
the values that each of them has alone.  And no interleaving is a dead end: each can be brought to
an end (`Program.exists_finish`).
-/

namespace HttpSuite

variable {σ α β : Type}

namespace Exchange

/-- The instants of an exchange: it begins, waits for each reply, and after each but the last it
pauses. -/
def turns (x : Exchange) : Nat := 2 * x.retries + 2

/-- The instants of exchanges side by side. -/
def turnsAll : List (Option Exchange) → Nat
  | [] => 0
  | none :: rest => turnsAll rest
  | some x :: rest => x.turns + turnsAll rest

theorem weight_idle (x : Exchange) : (State.idle x).weight = x.turns := rfl

theorem total_idle (xs : List (Option Exchange)) :
    State.total (xs.map fun x => x.map State.idle) = turnsAll xs := by
  induction xs with
  | nil => rfl
  | cons x xs ih =>
    cases x with
    | none => exact ih
    | some x => exact congrArg _ ih

end Exchange

namespace Program

open Exchange (State)

/-- The program comes to its end within a number of instants, whatever the replies are. -/
def Within : Program α → Nat → Prop
  | done _, _ => True
  | note _ next, n => next.Within n
  | sleep _ next, n => ∃ m, m + 1 ≤ n ∧ next.Within m
  | exchange x next, n => ∃ m, m + x.turns ≤ n ∧ ∀ reply, (next reply).Within m
  | exchanges xs next, n => ∃ m, m + Exchange.turnsAll xs ≤ n ∧ ∀ replies, (next replies).Within m

theorem Within.mono {p : Program α} {m n : Nat} (h : p.Within m) (hmn : m ≤ n) : p.Within n := by
  induction p generalizing m n with
  | done a => trivial
  | note note next ih => exact ih h hmn
  | sleep d next ih =>
    obtain ⟨k, hk, hnext⟩ := h
    exact ⟨k, Nat.le_trans hk hmn, hnext⟩
  | exchange x next ih =>
    obtain ⟨k, hk, hnext⟩ := h
    exact ⟨k, Nat.le_trans hk hmn, hnext⟩
  | exchanges xs next ih =>
    obtain ⟨k, hk, hnext⟩ := h
    exact ⟨k, Nat.le_trans hk hmn, hnext⟩

/-- One program after another takes the instants of both. -/
theorem Within.bind {p : Program α} {f : α → Program β} {m n k : Nat} (hp : p.Within m)
    (hf : ∀ a, (f a).Within n) (hk : m + n ≤ k) : (p >>= f).Within k := by
  induction p generalizing m k with
  | done a => exact (hf a).mono (by omega)
  | note note next ih => exact ih hp hk
  | sleep d next ih =>
    obtain ⟨j, hj, hnext⟩ := hp
    exact ⟨j + n, by omega, ih hnext (Nat.le_refl _)⟩
  | exchange x next ih =>
    obtain ⟨j, hj, hnext⟩ := hp
    exact ⟨j + n, by omega, fun reply => ih reply (hnext reply) (Nat.le_refl _)⟩
  | exchanges xs next ih =>
    obtain ⟨j, hj, hnext⟩ := hp
    exact ⟨j + n, by omega, fun replies => ih replies (hnext replies) (Nat.le_refl _)⟩

theorem within_pure (a : α) (n : Nat) : (pure a : Program α).Within n := trivial

/-- Notes take no time. -/
theorem within_notes_bind (ns : List Note) {f : Unit → Program β} {n : Nat}
    (h : (f ()).Within n) : (notes ns >>= f).Within n := by
  induction ns with
  | nil => exact h
  | cons note rest ih => exact ih

theorem within_pause (d : Duration) : (pause d).Within 1 := ⟨0, Nat.le_refl _, trivial⟩

theorem within_perform (x : Exchange) : (perform x).Within x.turns :=
  ⟨0, Nat.le_of_eq (Nat.zero_add _), fun _ => trivial⟩

theorem within_performAll (xs : List (Option Exchange)) :
    (performAll xs).Within (Exchange.turnsAll xs) :=
  ⟨0, Nat.le_of_eq (Nat.zero_add _), fun _ => trivial⟩

/-! ## Threads -/

namespace Thread

/-- The thread comes to its end within a number of instants. -/
def Within : Thread α → Nat → Prop
  | finished _, _ | broken _, _ => True
  | asleep _ next, n => ∃ m, m + 1 ≤ n ∧ next.Within m
  | awaiting s next, n => ∃ m, m + s.weight ≤ n ∧ ∀ reply, (next reply).Within m
  | awaitingAll states next, n =>
    ∃ m, m + State.total states ≤ n ∧ ∀ replies, (next replies).Within m

theorem Within.mono {s : Thread α} {m n : Nat} (h : s.Within m) (hmn : m ≤ n) : s.Within n := by
  cases s with
  | finished a => trivial
  | broken b => trivial
  | asleep wake next =>
    obtain ⟨k, hk, hnext⟩ := h
    exact ⟨k, Nat.le_trans hk hmn, hnext⟩
  | awaiting s next =>
    obtain ⟨k, hk, hnext⟩ := h
    exact ⟨k, Nat.le_trans hk hmn, hnext⟩
  | awaitingAll states next =>
    obtain ⟨k, hk, hnext⟩ := h
    exact ⟨k, Nat.le_trans hk hmn, hnext⟩

variable {t : Transport σ}

/-- A thread that can come to its end still can after a step. -/
theorem Step.within {a b : Thread α × World σ} (h : Step t a b) (ha : ∃ n, a.1.Within n) :
    ∃ n, b.1.Within n := by
  cases h with
  | finish h => exact ⟨0, trivial⟩
  | note h => exact ha
  | sleep h =>
    obtain ⟨_, m, -, hnext⟩ := ha
    exact ⟨m, hnext⟩
  | exchange h =>
    obtain ⟨_, _, -, m, -, hnext⟩ := ha
    exact ⟨_, m, Nat.le_refl _, hnext⟩
  | go h =>
    obtain ⟨_, m, -, hnext⟩ := ha
    exact ⟨_, m, Nat.le_refl _, hnext⟩
  | reply h =>
    obtain ⟨_, m, -, hnext⟩ := ha
    exact ⟨_, m, Nat.le_refl _, hnext _⟩
  | breaks h => exact ⟨0, trivial⟩
  | exchanges h =>
    obtain ⟨_, _, -, m, -, hnext⟩ := ha
    exact ⟨_, m, Nat.le_refl _, hnext⟩
  | goOne h =>
    obtain ⟨_, m, -, hnext⟩ := ha
    exact ⟨_, m, Nat.le_refl _, hnext⟩
  | replies h =>
    obtain ⟨_, m, -, hnext⟩ := ha
    exact ⟨_, m, Nat.le_refl _, hnext _⟩
  | breaksAll h => exact ⟨0, trivial⟩

/-- What is begun takes no more instants than the program. -/
theorem within_start {p : Program α} {n : Nat} (h : p.Within n) (w : World σ) :
    (p.start t w).1.Within n := by
  induction p generalizing n w with
  | done a => trivial
  | note note next ih => exact ih h (w.note note)
  | sleep d next ih =>
    rw [start]
    split
    · obtain ⟨m, hm, hnext⟩ := h
      exact (ih hnext w).mono (by omega)
    · exact h
  | exchange x next ih =>
    obtain ⟨m, hm, hnext⟩ := h
    have hweight := State.weight_advance_le t (State.idle x) w
    rw [Exchange.weight_idle] at hweight
    simp only [start]
    split
    · rename_i reply hr
      exact (ih reply (hnext reply) _).mono (by omega)
    · trivial
    · exact ⟨m, by omega, hnext⟩
  | exchanges xs next ih =>
    obtain ⟨m, hm, hnext⟩ := h
    have htotal := State.total_advanceAll_le t (xs.map fun x => x.map State.idle) w
    rw [Exchange.total_idle] at htotal
    simp only [start]
    split
    · exact (ih _ (hnext _) _).mono (by omega)
    · trivial
    · exact ⟨m, by omega, hnext⟩

theorem within_advance_awaiting {s : State} {next : Reply → Program α} {m : Nat}
    (h : ∀ reply, (next reply).Within m) (w : World σ) :
    ((awaiting s next).advance t w).1.Within (m + (s.advance t w).1.weight) := by
  simp only [advance]
  split
  · exact (within_start (h _) _).mono (by omega)
  · trivial
  · exact ⟨m, Nat.le_refl _, h⟩

theorem within_advance_awaitingAll {states : List (Option State)}
    {next : List (Option Reply) → Program α} {m : Nat}
    (h : ∀ replies, (next replies).Within m) (w : World σ) :
    ((awaitingAll states next).advance t w).1.Within
      (m + State.total (State.advanceAll t states w).1) := by
  simp only [advance]
  split
  · exact (within_start (h _) _).mono (by omega)
  · trivial
  · exact ⟨m, Nat.le_refl _, h⟩

theorem within_advance_le {s : Thread α} {n : Nat} (h : s.Within n) (w : World σ) :
    (s.advance t w).1.Within n := by
  cases s with
  | finished a => trivial
  | broken b => trivial
  | asleep wake next =>
    rw [advance]
    split
    · obtain ⟨m, hm, hnext⟩ := h
      exact (within_start hnext w).mono (by omega)
    · exact h
  | awaiting s next =>
    obtain ⟨m, hm, hnext⟩ := h
    have hle := State.weight_advance_le t s w
    exact (within_advance_awaiting hnext w).mono (by omega)
  | awaitingAll states next =>
    obtain ⟨m, hm, hnext⟩ := h
    have hle := State.total_advanceAll_le t states w
    exact (within_advance_awaitingAll hnext w).mono (by omega)

/-- The thread waits for a time, or it has come to something. -/
def Waits : Thread α → Prop
  | awaiting s _ => s.result? = none
  | awaitingAll states _ => State.results? states = none
  | _ => True

/-- A thread that waits for no time has come to something. -/
theorem Waits.result?_isSome {s : Thread α} (h : s.Waits) (hw : s.wake? = none) :
    s.result?.isSome = true := by
  cases s with
  | finished a => rfl
  | broken b => rfl
  | asleep wake next => cases hw
  | awaiting s next =>
    have hr := (State.result?_isSome_iff s).mpr hw
    have hnone : s.result? = none := h
    rw [hnone] at hr
    cases hr
  | awaitingAll states next =>
    obtain ⟨-, k, hk⟩ := State.of_results?_eq_none h
    cases hk.symm.trans hw

theorem waits_start (p : Program α) (w : World σ) : (p.start t w).1.Waits := by
  induction p generalizing w with
  | done a => trivial
  | note n next ih => exact ih _
  | sleep d next ih =>
    rw [start]
    split
    · exact ih w
    · trivial
  | exchange x next ih =>
    simp only [start]
    split
    · exact ih _ _
    · trivial
    · rename_i hr
      exact hr
  | exchanges xs next ih =>
    simp only [start]
    split
    · exact ih _ _
    · trivial
    · rename_i hr
      exact hr

theorem waits_advance (s : Thread α) (w : World σ) : (s.advance t w).1.Waits := by
  cases s with
  | finished a => trivial
  | broken b => trivial
  | asleep wake next =>
    rw [advance]
    split
    · exact waits_start next w
    · trivial
  | awaiting s next =>
    simp only [advance]
    split
    · exact waits_start _ _
    · trivial
    · rename_i hr
      exact hr
  | awaitingAll states next =>
    simp only [advance]
    split
    · exact waits_start _ _
    · trivial
    · rename_i hr
      exact hr

/-- **A thread in which something happens uses up an instant.** -/
theorem within_advance_lt {s : Thread α} {n k : Nat} (h : s.Within n) (hwaits : s.Waits)
    (hk : s.wake? = some k) {w : World σ} (hw : k ≤ w.now) :
    ∃ m, m < n ∧ (s.advance t w).1.Within m := by
  cases s with
  | finished a => exact nomatch hk
  | broken b => exact nomatch hk
  | asleep wake next =>
    obtain ⟨m, hm, hnext⟩ := h
    cases hk
    rw [advance, if_pos hw]
    exact ⟨m, hm, within_start hnext w⟩
  | awaiting s next =>
    obtain ⟨m, hm, hnext⟩ := h
    have hlt := State.weight_advance_lt t hk hw
    exact ⟨_, by omega, within_advance_awaiting hnext w⟩
  | awaitingAll states next =>
    obtain ⟨m, hm, hnext⟩ := h
    have hbreak := (State.of_results?_eq_none hwaits).1
    have hlt := State.total_advanceAll_lt t hbreak (List.min?_mem hk) hw
    exact ⟨_, by omega, within_advance_awaitingAll hnext w⟩

theorem eq_broken_of_break? {s : Thread α} {b : Break} (h : s.break? = some b) :
    s = broken b := by
  cases s with
  | broken b' =>
    cases h
    rfl
  | _ => cases h

/-- So does a thread that breaks off, at whatever time. -/
theorem pos_of_breaks {s : Thread α} {n : Nat} (h : s.Within n) (hwaits : s.Waits)
    (hbreak : s.break? = none) {w : World σ} (hb : (s.advance t w).1.break?.isSome = true) :
    0 < n := by
  cases hk : s.wake? with
  | some k =>
    -- at the time that it waits for, something happens in the thread
    obtain ⟨m, hm, -⟩ := within_advance_lt (t := t) (w := State.jump w k) h hwaits hk
      (Nat.le_max_right w.now k)
    omega
  | none =>
    have hr := hwaits.result?_isSome hk
    cases s with
    | finished a => cases hb
    | broken b => cases hbreak
    | _ => cases hr

end Thread

/-! ## All threads together -/

section Together

variable {t : Transport σ}

/-- One of the threads has broken off. -/
def Breaks (threads : List (Thread α)) : Prop := ∃ s ∈ threads, s.break?.isSome = true

/-- Nothing more happens: one of the threads has broken off, or all have finished. -/
def Over (threads : List (Thread α)) : Prop :=
  Breaks threads ∨ ∀ s ∈ threads, ∃ a, s = .finished a

theorem breaks_iff {threads : List (Thread α)} :
    Breaks threads ↔ ∃ b, threads.findSome? Thread.break? = some b := by
  rw [← Option.isSome_iff_exists, List.findSome?_isSome_iff]
  rfl

theorem breaks_cons_iff {s : Thread α} {rest : List (Thread α)} :
    Breaks (s :: rest) ↔ s.break?.isSome = true ∨ Breaks rest := by
  simp only [Breaks, List.mem_cons, or_and_right, exists_or, exists_eq_left]

theorem waits_advanceAll (threads : List (Thread α)) (w : World σ) :
    Breaks (Thread.advanceAll t threads w).1 ∨
      ∀ s ∈ (Thread.advanceAll t threads w).1, s.Waits := by
  induction threads generalizing w with
  | nil => exact .inr fun s hs => nomatch hs
  | cons s rest ih =>
    rw [Thread.advanceAll_cons]
    split
    · rename_i hb
      exact .inl (breaks_cons_iff.mpr (.inl hb))
    · exact (ih (s.advance t w).2).imp (fun hb => breaks_cons_iff.mpr (.inr hb))
        fun hrest => List.forall_mem_cons.mpr ⟨Thread.waits_advance s w, hrest⟩

theorem within_advanceAll_le {threads : List (Thread α)} {ns : List Nat}
    (h : List.Forall₂ Thread.Within threads ns) (w : World σ) :
    List.Forall₂ Thread.Within (Thread.advanceAll t threads w).1 ns := by
  induction h generalizing w with
  | nil => exact .nil
  | cons hs hrest ih =>
    rw [Thread.advanceAll_cons]
    split
    · exact .cons (Thread.within_advance_le hs w) hrest
    · exact .cons (Thread.within_advance_le hs w) (ih _)

theorem within_advanceAll_lt {threads : List (Thread α)} {ns : List Nat}
    (h : List.Forall₂ Thread.Within threads ns) (hwaits : ∀ s ∈ threads, s.Waits)
    (hbreaks : ¬ Breaks threads) {k : Nat} (hk : k ∈ threads.filterMap Thread.wake?) {w : World σ}
    (hw : k ≤ w.now) :
    ∃ ms, List.Forall₂ Thread.Within (Thread.advanceAll t threads w).1 ms ∧ ms.sum < ns.sum := by
  induction h generalizing w with
  | nil => exact nomatch hk
  | @cons s n rest ns hs hrest ih =>
    obtain ⟨hwait, hwaits⟩ := List.forall_mem_cons.mp hwaits
    rw [breaks_cons_iff, not_or, Bool.not_eq_true, Option.isSome_eq_false_iff,
      Option.isNone_iff_eq_none] at hbreaks
    have hnow : (s.advance t w).2.now = w.now := (Thread.steps_advance s w).now_eq
    rw [Thread.advanceAll_cons]
    split
    · rename_i hb
      have hpos := Thread.pos_of_breaks hs hwait hbreaks.1 hb
      obtain ⟨b, hb⟩ := Option.isSome_iff_exists.mp hb
      rw [Thread.eq_broken_of_break? hb]
      refine ⟨0 :: ns, .cons trivial hrest, ?_⟩
      rw [List.sum_cons, List.sum_cons]
      omega
    · by_cases hlater : k ∈ rest.filterMap Thread.wake?
      · obtain ⟨ms, hms, hlt⟩ := ih hwaits hbreaks.2 hlater (w := (s.advance t w).2) (by omega)
        refine ⟨n :: ms, .cons (Thread.within_advance_le hs w) hms, ?_⟩
        rw [List.sum_cons, List.sum_cons]
        omega
      · have hwake : s.wake? = some k := by
          cases hwake : s.wake? with
          | none =>
            rw [List.filterMap_cons_none hwake] at hk
            exact absurd hk hlater
          | some m =>
            rw [List.filterMap_cons_some hwake] at hk
            rw [(List.mem_cons.mp hk).resolve_right hlater]
        obtain ⟨m, hm, hs⟩ := Thread.within_advance_lt (t := t) hs hwait hwake hw
        refine ⟨m :: ns, .cons hs (within_advanceAll_le hrest _), ?_⟩
        rw [List.sum_cons, List.sum_cons]
        omega

/-- Threads of which none waits for a time are over. -/
theorem over_of_wakes {threads : List (Thread α)} (hwaits : ∀ s ∈ threads, s.Waits)
    (hnone : ∀ s ∈ threads, s.wake? = none) : Over threads := by
  by_cases hb : Breaks threads
  · exact .inl hb
  · refine .inr fun s hs => ?_
    have hr := (hwaits s hs).result?_isSome (hnone s hs)
    cases s with
    | finished a => exact ⟨a, rfl⟩
    | broken b => exact absurd ⟨_, hs, rfl⟩ hb
    | _ => cases hr

/-- **After their instants the threads are over.** -/
theorem over_finishAll {turns : Nat} {threads : List (Thread α)} {ns : List Nat}
    (h : Breaks threads ∨ List.Forall₂ Thread.Within threads ns ∧ ∀ s ∈ threads, s.Waits)
    (hsum : ns.sum ≤ turns) (w : World σ) : Over (Thread.finishAll t turns threads w).1 := by
  induction turns generalizing threads ns w with
  | zero =>
    by_cases hb : Breaks threads
    · exact .inl hb
    · obtain ⟨hwithin, hwaits⟩ := h.resolve_left hb
      -- a thread that waits would need an instant, and there is none
      refine over_of_wakes hwaits fun s hs => Option.eq_none_iff_forall_ne_some.mpr fun k hk => ?_
      have hmem : k ∈ threads.filterMap Thread.wake? := List.mem_filterMap.mpr ⟨s, hs, hk⟩
      obtain ⟨ms, -, hlt⟩ :=
        within_advanceAll_lt (t := t) (w := State.jump w k) hwithin hwaits hb hmem
          (Nat.le_max_right w.now k)
      omega
  | succ turns ih =>
    rw [Thread.finishAll]
    split
    · rename_i k hbreak hk
      have hb : ¬ Breaks threads := by
        rw [breaks_iff, hbreak]
        rintro ⟨b, hb⟩
        cases hb
      obtain ⟨hwithin, hwaits⟩ := h.resolve_left hb
      obtain ⟨ms, hms, hlt⟩ := within_advanceAll_lt (t := t) (w := State.jump w k) hwithin hwaits hb
        (List.min?_mem hk) (Nat.le_max_right w.now k)
      exact ih ((waits_advanceAll threads (State.jump w k)).imp id fun hw => ⟨hms, hw⟩) (by omega) _
    · rename_i hstop
      by_cases hb : Breaks threads
      · exact .inl hb
      · obtain ⟨-, hwaits⟩ := h.resolve_left hb
        refine over_of_wakes hwaits fun s hs => Option.eq_none_iff_forall_ne_some.mpr fun k hk => ?_
        have hbreak : threads.findSome? Thread.break? = none :=
          Option.eq_none_iff_forall_ne_some.mpr fun b hb' => hb (breaks_iff.mpr ⟨b, hb'⟩)
        have hmem : k ∈ threads.filterMap Thread.wake? := List.mem_filterMap.mpr ⟨s, hs, hk⟩
        obtain ⟨first, hfirst⟩ :=
          Option.ne_none_iff_exists'.mp (mt List.min?_eq_none_iff.mp (List.ne_nil_of_mem hmem))
        exact hstop first hbreak hfirst

variable {answer : Request → SendOptions → Delivery} {now : Nat} {programs : List (Program α)}
  {threads : List (Thread α)} {ns : List Nat}

/-- What a thread has come to is the value that it led to. -/
theorem Thread.Leads.toOption_eq {v : Option α} {s : Thread α} {result : Except Break α}
    (h : s.Leads answer now v) (hs : s.result? = some result) : result.toOption = v := by
  cases s with
  | finished b =>
    cases hs
    exact h.symm
  | broken b =>
    cases hs
    exact h.symm
  | _ => cases hs

/-- **What threads that are over have come to** is what all of them have come to, if each of them
has come to something. -/
theorem Over.toOption_results {f : β → Option α} {xs : List β}
    (h : List.Forall₂ (fun x s => ∀ result, Thread.result? s = some result → result.toOption = f x)
      xs threads) (hover : Over threads) : (Thread.results threads).toOption = xs.mapM f := by
  by_cases hb : Breaks threads
  · obtain ⟨b, hfirst⟩ := breaks_iff.mp hb
    obtain ⟨s, hs, hbreak⟩ := hb
    obtain ⟨x, hx, hresult⟩ := exists_left_of_forall₂ h hs
    obtain ⟨b', hb'⟩ := Option.isSome_iff_exists.mp hbreak
    have hnone : f x = none :=
      (hresult (.error b') (by rw [Thread.eq_broken_of_break? hb']; rfl)).symm
    rw [mapM_eq_none_of_mem hx hnone, Thread.results, hfirst]
    rfl
  · have hnone : threads.findSome? Thread.break? = none :=
      Option.eq_none_iff_forall_ne_some.mpr fun b hb' => hb (breaks_iff.mpr ⟨b, hb'⟩)
    have hfinished := hover.resolve_left hb
    rw [Thread.results, hnone]
    refine (mapM_eq_some_iff.mpr ?_).symm
    clear hover hb hnone
    induction h with
    | nil => exact .nil
    | cons hx _ ih =>
      obtain ⟨⟨a, rfl⟩, hrest⟩ := List.forall_mem_cons.mp hfinished
      exact .cons (hx (.ok a) rfl).symm (ih hrest)

/-- Threads that are over have come to the values of their programs, if all of these have one. -/
theorem AllLead.results_eq (h : AllLead answer now programs threads) (hover : Over threads) :
    (Thread.results threads).toOption = programs.mapM (value (Exchange.answered answer)) :=
  hover.toOption_results (h.imp fun _ _ hs _ => hs.toOption_eq)

/-- What has begun takes no more instants than the programs, unless one of them has broken off. -/
theorem within_advanceAll_asleep (h : List.Forall₂ Within programs ns) {w : World σ}
    (hnow : now ≤ w.now) :
    Breaks (Thread.advanceAll t (programs.map (.asleep now)) w).1 ∨
      List.Forall₂ Thread.Within (Thread.advanceAll t (programs.map (.asleep now)) w).1 ns := by
  induction h generalizing w with
  | nil => exact .inr .nil
  | @cons p n programs ns hp _ ih =>
    have hstart : Thread.advance t (.asleep now p) w = p.start t w := by
      rw [Thread.advance, if_pos hnow]
    have hlater : now ≤ (p.start t w).2.now :=
      Nat.le_trans hnow (Nat.le_of_eq (Thread.steps_start p (Nat.le_refl w.now)).now_eq.symm)
    rw [List.map_cons, Thread.advanceAll_cons, hstart]
    split
    · rename_i hb
      exact .inl (breaks_cons_iff.mpr (.inl hb))
    · exact (ih hlater).imp (fun hb => breaks_cons_iff.mpr (.inr hb))
        fun hrest => .cons (Thread.within_start hp w) hrest

/-- What `together` leaves is over. -/
theorem over_together (h : List.Forall₂ Within programs ns) {turns : Nat} (hsum : ns.sum ≤ turns)
    (w : World σ) :
    Over (Thread.finishAll t turns (Thread.advanceAll t (programs.map (.asleep w.now)) w).1
      (Thread.advanceAll t (programs.map (.asleep w.now)) w).2).1 := by
  refine over_finishAll ?_ hsum _
  rcases within_advanceAll_asleep (t := t) h (Nat.le_refl w.now) with hb | hwithin
  · exact .inl hb
  · exact (waits_advanceAll _ w).imp id fun hwaits => ⟨hwithin, hwaits⟩

/-- It is reached by an interleaving from the programs asleep. -/
theorem exists_together (ht : t.Answers answer) (h : List.Forall₂ Within programs ns) {turns : Nat}
    (hsum : ns.sum ≤ turns) (w : World σ) :
    ∃ threads u, Interleaving t (programs.map (Thread.asleep w.now), w) (threads, u) ∧
      Over threads ∧ together t turns programs w = (Thread.results threads, u) := by
  have hstart : Interleaving t (programs.map (.asleep w.now), w)
      (Thread.advanceAll t (programs.map (.asleep w.now)) w) := interleaving_advanceAll [] _ w
  have hleads := AllLead.interleaving ht hstart (allLead_asleep programs w.now)
  have hfinish := interleaving_finishAll ht turns _ _ hleads
  exact ⟨_, _, hstart.trans hfinish, over_together h hsum w, rfl⟩

/-- **Programs side by side come to their own values**, given the instants they take together. -/
theorem together_eq (ht : t.Answers answer) (h : List.Forall₂ Within programs ns) {turns : Nat}
    (hsum : ns.sum ≤ turns) (w : World σ) :
    (together t turns programs w).1.toOption =
      programs.mapM (value (Exchange.answered answer)) := by
  obtain ⟨threads, u, hinterleaving, hover, htogether⟩ := exists_together ht h hsum w
  rw [htogether]
  exact (AllLead.interleaving ht hinterleaving (allLead_asleep programs w.now)).results_eq hover

/-! ## Any interleaving -/

theorem within_asleep (h : List.Forall₂ Within programs ns) (now : Nat) :
    ∀ s ∈ programs.map (Thread.asleep now), ∃ n, s.Within n := by
  induction h with
  | nil => exact fun s hs => nomatch hs
  | @cons p n programs ns hp _ ih =>
    exact List.forall_mem_cons.mpr ⟨⟨n + 1, n, Nat.le_refl _, hp⟩, ih⟩

theorem within_of_interleaving {a b : List (Thread α) × World σ} (h : Interleaving t a b)
    (ha : ∀ s ∈ a.1, ∃ n, s.Within n) : ∀ s ∈ b.1, ∃ n, s.Within n := by
  induction h with
  | refl => exact ha
  | tail _ hturn ih =>
    cases hturn with
    | tick h => exact ih
    | @act before after s s' w w' h =>
      intro r hr
      rcases List.mem_append.mp hr with hr | hr
      · exact ih r (List.mem_append_left _ hr)
      rcases List.mem_cons.mp hr with rfl | hr
      · exact h.within (ih s (List.mem_append_right _ (List.mem_cons_self ..)))
      · exact ih r (List.mem_append_right _ (List.mem_cons_of_mem _ hr))

/-- **No interleaving is a dead end**: it can go on until the threads are over. -/
theorem exists_finish (ht : t.Answers answer) {a : List (Thread α) × World σ}
    (h : AllLead answer a.2.now programs a.1) (hwithin : ∀ s ∈ a.1, ∃ n, s.Within n) :
    ∃ b, Interleaving t a b ∧ Over b.1 := by
  choose! bound hbound using hwithin
  have hns : List.Forall₂ Thread.Within a.1 (a.1.map bound) :=
    List.forall₂_map_right_iff.mpr (List.forall₂_same.mpr hbound)
  have hadvance : Interleaving t a (Thread.advanceAll t a.1 a.2) :=
    interleaving_advanceAll [] a.1 a.2
  have hleads := AllLead.interleaving ht hadvance h
  have hfinish := interleaving_finishAll ht (a.1.map bound).sum _ _ hleads
  refine ⟨_, hadvance.trans hfinish, over_finishAll ?_ (Nat.le_refl _) _⟩
  exact (waits_advanceAll a.1 a.2).imp id fun hwaits =>
    ⟨within_advanceAll_le hns a.2, hwaits⟩

end Together

end Program

end HttpSuite
