import HttpSuite.Proofs.Run.Course
import Mathlib.Logic.Relation

/-!
# Pauses between attempts

An exchange pauses once between two attempts.  The pauses begin with the initial one and go on by
`RetryPolicy.next?`, which multiplies and then cuts off at the longest pause
(`Exchange.run_pauses`).  Where every pause that is reached in this way has a product, there is none
after the last attempt.

Only what follows a pause is cut off.  So the pauses keep to the longest one where the initial pause
does, and a policy whose initial pause is longer is exceeded by the first pause, and by no other.
-/

namespace HttpSuite

variable {σ : Type}

/-! ## Policies -/

namespace RetryPolicy

/-- One pause follows another: it is the product of that one, cut off at the longest pause. -/
def Follows (p : RetryPolicy) (d longer : Duration) : Prop := p.next? d = some longer

/-- From a pause on, each pause has a product that is a duration. -/
def MultipliesFrom (p : RetryPolicy) (delay : Duration) : Prop :=
  ∀ d, Relation.ReflTransGen p.Follows delay d → (d.times? p.multiplier).isSome = true

/-- Pauses that keep to the longest one: the first is the initial pause, cut off at the longest one,
and each is followed by its product, cut off as well. -/
structure Caps (p : RetryPolicy) (pauses : List Duration) : Prop where
  le : ∀ d ∈ pauses, d.nanoseconds ≤ p.maxDelay.nanoseconds
  begins : ∀ d, pauses.head? = some d → d = p.initialDelay.min p.maxDelay
  goes_on : pauses.IsChain p.Follows

variable {p : RetryPolicy} {delay longer : Duration}

theorem follows_iff : p.Follows delay longer ↔
    ∃ product, delay.times? p.multiplier = some product ∧ longer = product.min p.maxDelay := by
  rw [Follows, next?, Option.map_eq_some_iff]
  simp only [eq_comm]

theorem MultipliesFrom.next?_ne_none (h : p.MultipliesFrom delay)
    (hreach : Relation.ReflTransGen p.Follows delay longer) : p.next? longer ≠ none := by
  intro hnone
  have hsome := h longer hreach
  rw [Option.map_eq_none_iff.mp hnone] at hsome
  cases hsome

/-- It is enough to know finitely many pauses that lead to no other. -/
theorem multipliesFrom_of_closed {delays : List Duration} (hmem : delay ∈ delays)
    (hnext : ∀ d ∈ delays, ∃ longer ∈ delays, p.next? d = some longer) :
    p.MultipliesFrom delay := by
  intro d hreach
  have hd : d ∈ delays := by
    induction hreach with
    | refl => exact hmem
    | tail _ hfollows ih =>
      obtain ⟨longer, hlonger, hsome⟩ := hnext _ ih
      have heq : some longer = some _ := hsome.symm.trans hfollows
      rwa [← Option.some.inj heq]
  obtain ⟨longer, -, hsome⟩ := hnext d hd
  obtain ⟨product, hproduct, -⟩ := Option.map_eq_some_iff.mp hsome
  rw [hproduct]
  rfl

/-- The pauses of the policy that applies where none is given. -/
def defaultPauses : List Duration :=
  [100, 200, 400, 800, 1600, 3200, 5000].map Duration.ofMilliseconds

theorem default_multiplies : ({} : RetryPolicy).MultipliesFrom ({} : RetryPolicy).initialDelay := by
  have hmem : ({} : RetryPolicy).initialDelay ∈ defaultPauses := by decide
  exact multipliesFrom_of_closed hmem (by decide +kernel)

theorem Follows.le (h : p.Follows delay longer) :
    longer.nanoseconds ≤ p.maxDelay.nanoseconds := by
  obtain ⟨product, -, rfl⟩ := follows_iff.mp h
  exact Nat.min_le_right _ _

/-- All pauses but the first keep to the longest one. -/
theorem le_of_mem_tail {pauses : List Duration} (h : pauses.IsChain p.Follows) :
    ∀ d ∈ pauses.tail, d.nanoseconds ≤ p.maxDelay.nanoseconds := by
  induction h with
  | nil => exact fun d hd => nomatch hd
  | singleton d => exact fun d hd => nomatch hd
  | cons_cons hfollows _ ih => exact List.forall_mem_cons.mpr ⟨hfollows.le, ih⟩

/-- **The first pause decides** whether the pauses keep to the longest one. -/
theorem caps_iff {pauses : List Duration} (hchain : pauses.IsChain p.Follows)
    (hbegins : ∀ d, pauses.head? = some d → d = p.initialDelay) :
    p.Caps pauses ↔ pauses = [] ∨ p.initialDelay.nanoseconds ≤ p.maxDelay.nanoseconds := by
  cases pauses with
  | nil =>
    exact ⟨fun _ => .inl rfl, fun _ => ⟨fun _ hd => (nomatch hd), fun _ hd => (nomatch hd), .nil⟩⟩
  | cons first rest =>
    obtain rfl : first = p.initialDelay := hbegins first rfl
    constructor
    · intro h
      exact .inr (h.le _ (List.mem_cons_self ..))
    · intro h
      have hle : p.initialDelay.nanoseconds ≤ p.maxDelay.nanoseconds :=
        h.resolve_left (List.cons_ne_nil _ _)
      have hmin : p.initialDelay.min p.maxDelay = p.initialDelay :=
        congrArg Duration.mk (Nat.min_eq_left hle)
      refine ⟨List.forall_mem_cons.mpr ⟨hle, le_of_mem_tail hchain⟩, fun d hd => ?_, hchain⟩
      rw [hmin]
      exact hbegins d hd

end RetryPolicy

namespace Exchange

variable {x : Exchange} {t : Transport σ}

/-- The pauses of attempts, in order. -/
def pauses (trace : List Attempt) : List Duration := trace.filterMap Attempt.pause

namespace Course

variable {failed : Nat} {delay : Duration} {w : World σ} {trace : List Attempt} {r : Ran σ Reply}

theorem head?_pauses (h : Course t x failed delay w trace r) {d : Duration}
    (hd : (pauses trace).head? = some d) : d = delay := by
  cases h with
  | ended h => cases hd
  | broken h hdelay => exact (Option.some.inj hd).symm
  | again h hdelay course => exact (Option.some.inj hd).symm

theorem isChain_pauses (h : Course t x failed delay w trace r) :
    (pauses trace).IsChain x.policy.Follows := by
  induction h with
  | ended h => exact .nil
  | broken h hdelay => exact .singleton _
  | @again failed delay longer w e rest r h hdelay course ih =>
    have hfirst : ∀ d ∈ (pauses rest).head?, x.policy.Follows delay d := by
      intro d hd
      rw [course.head?_pauses hd]
      exact hdelay
    exact List.isChain_cons.mpr ⟨hfirst, ih⟩

/-- Each pause is reached from the first. -/
theorem reaches (h : Course t x failed delay w trace r) :
    ∀ a ∈ trace, ∀ d, a.pause = some d → Relation.ReflTransGen x.policy.Follows delay d := by
  induction h with
  | ended h => exact List.forall_mem_singleton.mpr fun d hd => nomatch hd
  | broken h hdelay =>
    refine List.forall_mem_singleton.mpr fun d hd => ?_
    rw [← Option.some.inj hd]
  | again h hdelay course ih =>
    refine List.forall_mem_cons.mpr ⟨fun d hd => ?_, fun a ha d hd => (ih a ha d hd).head hdelay⟩
    rw [← Option.some.inj hd]

/-- There is one pause between two attempts. -/
theorem length_pauses (h : Course t x failed delay w trace r) {last : Attempt}
    (hlast : trace.getLast? = some last) (hpause : last.pause = none) :
    (pauses trace).length + 1 = trace.length := by
  induction h with
  | ended h => rfl
  | broken h hdelay =>
    rw [← Option.some.inj hlast] at hpause
    cases hpause
  | again h hdelay course ih =>
    rw [List.getLast?_cons_of_ne_nil course.ne_nil] at hlast
    exact congrArg Nat.succ (ih hlast)

/-- No pause follows the last attempt, where every pause has a product. -/
theorem pause_last (h : Course t x failed delay w trace r)
    (hpolicy : x.policy.MultipliesFrom delay) {last : Attempt}
    (hlast : trace.getLast? = some last) : last.pause = none := by
  refine Option.eq_none_iff_forall_ne_some.mpr fun d hd => ?_
  have hreach := h.reaches last (List.mem_of_getLast? hlast) d hd
  exact hpolicy.next?_ne_none hreach ((h.ends hlast).2 d hd)

end Course

/-- An exchange that may break off for a reason: it is allowed as many retries as the counter holds,
or it may come to a pause without a product. -/
def MayBreak (x : Exchange) : Break → Prop
  | .counter => counterLimit ≤ x.retries + 1
  | .pause => ¬ x.policy.MultipliesFrom x.policy.initialDelay

/-- **Where an exchange breaks off.** -/
theorem mayBreak_of_run {w : World σ} {b : Break} (h : (x.run t w).1 = .error b) :
    x.MayBreak b := by
  obtain ⟨trace, last, hcourse, hsettles⟩ := exists_settles t x w
  have hresult := hcourse.result_eq hsettles.getLast?_eq
  have hlength := hsettles.length_le
  rw [h] at hresult
  split at hresult
  · rename_i hpause
    cases hresult
    intro hpolicy
    rw [hcourse.pause_last hpolicy hsettles.getLast?_eq] at hpause
    cases hpause
  · split at hresult
    · rename_i hfull
      cases hresult
      change counterLimit ≤ x.retries + 1
      omega
    · cases hresult.1

/-- **One pause between two attempts, and none after the last.**  The first pause is the initial
one, and each is followed by its product, cut off at the longest pause.  The pauses keep to the
longest one if there are none, or if the initial pause does. -/
theorem run_pauses (t : Transport σ) (x : Exchange) (w : World σ)
    (hpolicy : x.policy.MultipliesFrom x.policy.initialDelay) :
    ∃ trace last, x.Settles t w trace last (x.run t w).2 ∧ last.pause = none ∧
      (pauses trace).length + 1 = trace.length ∧
      (∀ d, (pauses trace).head? = some d → d = x.policy.initialDelay) ∧
      (pauses trace).IsChain (fun d longer => ∃ product,
        d.times? x.policy.multiplier = some product ∧
          longer = product.min x.policy.maxDelay) ∧
      (∀ d ∈ (pauses trace).tail, d.nanoseconds ≤ x.policy.maxDelay.nanoseconds) ∧
      (x.policy.Caps (pauses trace) ↔
        pauses trace = [] ∨ x.policy.initialDelay.nanoseconds ≤ x.policy.maxDelay.nanoseconds) := by
  obtain ⟨trace, last, hcourse, hsettles⟩ := exists_settles t x w
  have hlast := hsettles.getLast?_eq
  have hchain := hcourse.isChain_pauses
  have hbegins : ∀ d, (pauses trace).head? = some d → d = x.policy.initialDelay :=
    fun d hd => hcourse.head?_pauses hd
  have hpause := hcourse.pause_last hpolicy hlast
  exact ⟨trace, last, hsettles, hpause, hcourse.length_pauses hlast hpause, hbegins,
    hchain.imp fun _ _ => RetryPolicy.follows_iff.mp, RetryPolicy.le_of_mem_tail hchain,
    RetryPolicy.caps_iff hchain hbegins⟩

/-- With two retries there are two pauses, of 100 and 200 milliseconds. -/
theorem run_pauses_flaky :
    let t := Transport.scripted "script"
    let w := World.start flakyScript
    flaky.policy.MultipliesFrom flaky.policy.initialDelay ∧
      ∃ trace last, flaky.Settles t w trace last (flaky.run t w).2 ∧
        flaky.policy.Caps (pauses trace) ∧
        pauses trace = [.ofMilliseconds 100, .ofMilliseconds 200] := by
  intro t w
  have hpolicy : flaky.policy.MultipliesFrom flaky.policy.initialDelay :=
    RetryPolicy.default_multiplies
  have hsends : (flaky.run t w).2.sends.length = 3 := by decide +kernel
  have hinitial : flaky.policy.initialDelay.nanoseconds ≤ flaky.policy.maxDelay.nanoseconds := by
    decide
  have hnext : flaky.policy.next? (.ofMilliseconds 100) = some (.ofMilliseconds 200) := by
    decide +kernel
  obtain ⟨trace, last, hsettles, -, hlength, hbegins, hchain, -, hcaps⟩ :=
    run_pauses t flaky w hpolicy
  refine ⟨hpolicy, trace, last, hsettles, hcaps.mpr (.inr hinitial), ?_⟩
  rw [hsettles.sends, List.length_append, List.length_map] at hsends
  have htrace : 0 + trace.length = 3 := hsends
  have htwo : (pauses trace).length = 2 := by omega
  obtain ⟨first, second, heq⟩ := List.length_eq_two.mp htwo
  rw [heq] at hbegins hchain ⊢
  obtain rfl : first = .ofMilliseconds 100 := hbegins first rfl
  have hsecond := RetryPolicy.follows_iff.mpr (List.isChain_cons_cons.mp hchain).1
  rw [RetryPolicy.Follows, hnext] at hsecond
  rw [Option.some.inj hsecond]

/-- An exchange whose policy begins with a longer pause than it allows. -/
def hesitant : Exchange :=
  { flaky with
    retries := 1
    policy := { initialDelay := .ofMilliseconds 1000, maxDelay := .ofMilliseconds 100 } }

/-- Against a transport that refuses everything, `hesitant` waits ten times as long as its policy
allows. -/
theorem hesitant_waits :
    let t := Transport.constant ⟨0, .error (.connection "refused")⟩
    hesitant.policy.MultipliesFrom hesitant.policy.initialDelay ∧
      hesitant.policy.maxDelay = .ofMilliseconds 100 ∧
      (hesitant.run t (World.start ())).2.sends.map (fun sending => sending.2.2) = [0, 1000] := by
  intro t
  have hmem : hesitant.policy.initialDelay ∈
      [Duration.ofMilliseconds 1000, .ofMilliseconds 100] := by decide
  have hpolicy : hesitant.policy.MultipliesFrom hesitant.policy.initialDelay :=
    RetryPolicy.multipliesFrom_of_closed hmem (by decide +kernel)
  exact ⟨hpolicy, rfl, by decide +kernel⟩

end Exchange

end HttpSuite
