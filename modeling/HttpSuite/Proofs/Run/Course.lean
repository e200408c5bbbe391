import HttpSuite.Proofs.Run.Program
import HttpSuite.Suite.Config
import Mathlib.Data.List.Chain
import Mathlib.Data.List.Forall2

/-!
# How an exchange is settled

An exchange makes attempts until one is not followed by another: it brought a response, or an error
that no further attempt mends, or it was the last that is allowed.  `Exchange.Course` lists them,
each with the pause after it, and everything else is read off a course: what the exchange comes to,
what was sent and when.

## Where there is no reply

There are two ways to come to no reply.  A failed attempt is counted before its error is looked at,
so where the largest number of retries is allowed that fits the counter, the last attempt that is
allowed cannot be counted when it fails.  And the pause after the next failure is computed when a
pause is over, so a pause without a product is the end of the exchange, whether or not the next
attempt would fail.  `Exchange.Course.result_eq` says that these are the only ones, and
`Exchange.run_settles` puts a whole course together.
-/

namespace HttpSuite

variable {σ : Type}

/-- What comes back for one request sent again and again. -/
def Transport.deliveries (t : Transport σ) (request : Request) (options : SendOptions) :
    Nat → σ → List Delivery
  | 0, _ => []
  | n + 1, s =>
    let (delivery, s) := t.send request options s
    delivery :: t.deliveries request options n s

/-- A transport with the same delivery for every request. -/
def Transport.constant (delivery : Delivery) : Transport Unit where
  name := "constant"
  send := fun _ _ state => (delivery, state)

namespace Exchange

/-! ## Attempts -/

/-- The reply of an attempt, given what comes back for it. -/
def counted (x : Exchange) (d : Delivery) : Reply :=
  if d.latency ≤ x.limit then d.reply else x.expired

variable {x : Exchange} {t : Transport σ}

/-- The reply of an attempt, the time when it is known and what becomes of the transport. -/
theorem attempt_spec (x : Exchange) (t : Transport σ) (w : World σ) :
    let sent := t.send x.request x.options w.transport
    (x.attempt t w).1 = x.counted sent.1 ∧ (x.attempt t w).2.transport = sent.2 ∧
      (x.attempt t w).2.now = w.now + min sent.1.latency x.limit ∧
      (x.attempt t w).2.sends = w.sends ++ [(x.request, x.options, w.now)] := by
  intro sent
  have hsends := w.sends_send t x.request x.options
  by_cases hl : sent.1.latency ≤ x.limit
  · have hattempt : x.attempt t w =
        (sent.1.reply, (w.send t x.request x.options).2.wait sent.1.latency) := if_pos hl
    rw [hattempt, counted, if_pos hl, Nat.min_eq_left hl]
    exact ⟨rfl, rfl, rfl, hsends⟩
  · have hattempt : x.attempt t w =
        (x.expired, (w.send t x.request x.options).2.wait x.limit) := if_neg hl
    rw [hattempt, counted, if_neg hl, Nat.min_eq_right (Nat.le_of_not_le hl)]
    exact ⟨rfl, rfl, rfl, hsends⟩

/-- An error after which another attempt is made, if one is allowed. -/
def IsMendable (reply : Reply) : Prop := ∃ e, reply = .error e ∧ e.isRetryable = true

/-- **What follows an attempt.**  It ends the exchange with its own reply or, if it has failed, with
a count that runs full. -/
theorem sequel_eq_ended_iff {failed : Nat} {reply : Reply} {result : Except Break Reply} :
    x.sequel failed reply = .ended result ↔
      if counterLimit ≤ failed + 1 ∧ reply.toOption = none then result = .error .counter
      else result = .ok reply ∧ (IsMendable reply → x.retries < failed + 1) := by
  cases reply with
  | ok response =>
    have hok : ¬ (counterLimit ≤ failed + 1 ∧ (.ok response : Reply).toOption = none) := by
      rintro ⟨-, hnone⟩
      cases hnone
    rw [if_neg hok]
    constructor
    · intro h
      cases h
      refine ⟨rfl, ?_⟩
      rintro ⟨e, he, -⟩
      cases he
    · rintro ⟨rfl, -⟩
      rfl
  | error e =>
    have hnone : (.error e : Reply).toOption = none := rfl
    have hmendable : IsMendable (.error e) ↔ e.isRetryable = true := by
      refine ⟨?_, fun hr => ⟨e, rfl, hr⟩⟩
      rintro ⟨e', he, hr⟩
      cases he
      exact hr
    rw [sequel]
    by_cases hfull : counterLimit ≤ failed + 1
    · rw [if_pos hfull, if_pos ⟨hfull, hnone⟩]
      exact ⟨fun h => by cases h; rfl, fun h => by rw [h]⟩
    · have hfits : ¬ (counterLimit ≤ failed + 1 ∧ (.error e : Reply).toOption = none) :=
        fun h => hfull h.1
      rw [if_neg hfull, if_neg hfits, hmendable]
      split
      · rename_i hstop
        constructor
        · intro h
          cases h
          refine ⟨rfl, fun hr => hstop.resolve_right ?_⟩
          rw [hr]
          exact Bool.noConfusion
        · rintro ⟨rfl, -⟩
          rfl
      · rename_i hgoes
        rw [not_or, Bool.not_eq_false] at hgoes
        constructor
        · intro h
          cases h
        · rintro ⟨-, hr⟩
          exact absurd (hr hgoes.2) hgoes.1

theorem sequel_eq_again {failed : Nat} {reply : Reply} {e : TransportError}
    (h : x.sequel failed reply = .again e) :
    reply = .error e ∧ e.isRetryable = true ∧ failed + 1 < counterLimit := by
  cases reply with
  | ok response => cases h
  | error e' =>
    rw [sequel] at h
    split at h
    · cases h
    · split at h
      · cases h
      · rename_i hfits hgoes
        rw [not_or, Bool.not_eq_false] at hgoes
        cases h
        exact ⟨rfl, hgoes.2, Nat.lt_of_not_le hfits⟩

variable {failed : Nat} {delay : Duration} {w : World σ}

theorem attempts_of_ended {result : Except Break Reply}
    (h : x.sequel failed (x.attempt t w).1 = .ended result) (delay : Duration) :
    x.attempts t failed delay w = (result, (x.attempt t w).2) := by
  rw [attempts]
  dsimp only
  split
  · rename_i result' h'
    cases h.symm.trans h'
    rfl
  · rename_i e h'
    cases h.symm.trans h'

theorem attempts_of_again {e : TransportError}
    (h : x.sequel failed (x.attempt t w).1 = .again e) (delay : Duration) :
    x.attempts t failed delay w =
      let u := x.paused e (failed + 1) delay (x.attempt t w).2
      (x.policy.next? delay).elim (.error .pause, u) fun longer =>
        x.attempts t (failed + 1) longer u := by
  rw [attempts]
  dsimp only
  split
  · rename_i result h'
    cases h.symm.trans h'
  · rename_i e' h'
    cases h.symm.trans h'
    rfl

/-! ## Courses -/

/-- An attempt: when it begins, its reply, when that is known, and the pause after it. -/
structure Attempt where
  begun : Nat
  reply : Reply
  known : Nat
  pause : Option Duration

/-- One attempt comes before another, which begins when the pause between them is over.  The pause
after that one, if there is any, is the next. -/
def Attempt.Precedes (p : RetryPolicy) (a b : Attempt) : Prop :=
  ∃ d longer, a.pause = some d ∧ p.next? d = some longer ∧
    b.begun = a.known + d.milliseconds ∧ ∀ d', b.pause = some d' → d' = longer

/-- The attempt that an exchange makes in a world. -/
def attemptIn (x : Exchange) (t : Transport σ) (w : World σ) (pause : Option Duration) :
    Attempt :=
  ⟨w.now, (x.attempt t w).1, (x.attempt t w).2.now, pause⟩

/-- Attempts after a number of failed ones, one after another, and what they come to. -/
inductive Course (t : Transport σ) (x : Exchange) :
    Nat → Duration → World σ → List Attempt → Ran σ Reply → Prop where
  | ended {failed : Nat} {delay : Duration} {w : World σ} {result : Except Break Reply}
      (h : x.sequel failed (x.attempt t w).1 = .ended result) :
      Course t x failed delay w [x.attemptIn t w none] (result, (x.attempt t w).2)
  | broken {failed : Nat} {delay : Duration} {w : World σ} {e : TransportError}
      (h : x.sequel failed (x.attempt t w).1 = .again e) (hdelay : x.policy.next? delay = none) :
      Course t x failed delay w [x.attemptIn t w (some delay)]
        (.error .pause, x.paused e (failed + 1) delay (x.attempt t w).2)
  | again {failed : Nat} {delay longer : Duration} {w : World σ} {e : TransportError}
      {rest : List Attempt} {r : Ran σ Reply}
      (h : x.sequel failed (x.attempt t w).1 = .again e)
      (hdelay : x.policy.next? delay = some longer)
      (course : Course t x (failed + 1) longer
        (x.paused e (failed + 1) delay (x.attempt t w).2) rest r) :
      Course t x failed delay w (x.attemptIn t w (some delay) :: rest) r

/-- **What is carried out goes through a course.** -/
theorem exists_course (t : Transport σ) (x : Exchange) (failed : Nat) (delay : Duration)
    (w : World σ) : ∃ trace, Course t x failed delay w trace (x.attempts t failed delay w) := by
  induction hleft : x.retries - failed generalizing failed delay w with
  | zero =>
    cases h : x.sequel failed (x.attempt t w).1 with
    | ended result =>
      rw [attempts_of_ended h]
      exact ⟨_, .ended h⟩
    | again e =>
      have := lt_retries_of_sequel h
      omega
  | succ left ih =>
    cases h : x.sequel failed (x.attempt t w).1 with
    | ended result =>
      rw [attempts_of_ended h]
      exact ⟨_, .ended h⟩
    | again e =>
      rw [attempts_of_again h]
      cases hdelay : x.policy.next? delay with
      | none => exact ⟨_, .broken h hdelay⟩
      | some longer =>
        obtain ⟨rest, hrest⟩ := ih (failed + 1) longer
          (x.paused e (failed + 1) delay (x.attempt t w).2) (by omega)
        exact ⟨_, .again h hdelay hrest⟩

namespace Course

variable {trace : List Attempt} {r : Ran σ Reply}

theorem ne_nil (h : Course t x failed delay w trace r) : trace ≠ [] := by
  cases h <;> exact List.cons_ne_nil _ _

theorem length_le (h : Course t x failed delay w trace r) :
    trace.length ≤ x.retries - failed + 1 := by
  induction h with
  | ended h => exact Nat.le_add_left _ _
  | broken h hdelay => exact Nat.le_add_left _ _
  | again h hdelay course ih =>
    have := lt_retries_of_sequel h
    rw [List.length_cons]
    omega

/-- Where an attempt is followed by another, it has failed in a way that this one may mend. -/
theorem isMendable (h : Course t x failed delay w trace r) :
    ∀ a ∈ trace.dropLast, IsMendable a.reply := by
  induction h with
  | ended h => exact fun a ha => nomatch ha
  | broken h hdelay => exact fun a ha => nomatch ha
  | again h hdelay course ih =>
    intro a ha
    rw [List.dropLast_cons_of_ne_nil course.ne_nil] at ha
    rcases List.mem_cons.mp ha with rfl | ha
    · obtain ⟨hreply, hretry, -⟩ := sequel_eq_again h
      exact ⟨_, hreply, hretry⟩
    · exact ih a ha

/-- Each attempt gets what comes back for the request the next time, as far as it is in time. -/
theorem answers (h : Course t x failed delay w trace r) :
    List.Forall₂ (fun a d => a.reply = x.counted d ∧ a.known = a.begun + min d.latency x.limit)
      trace (t.deliveries x.request x.options trace.length w.transport) := by
  induction h with
  | @ended failed delay w result h =>
    obtain ⟨hreply, -, hknown, -⟩ := x.attempt_spec t w
    exact .cons ⟨hreply, hknown⟩ .nil
  | @broken failed delay w e h hdelay =>
    obtain ⟨hreply, -, hknown, -⟩ := x.attempt_spec t w
    exact .cons ⟨hreply, hknown⟩ .nil
  | @again failed delay longer w e rest r h hdelay course ih =>
    obtain ⟨hreply, htransport, hknown, -⟩ := x.attempt_spec t w
    have hpaused : (x.paused e (failed + 1) delay (x.attempt t w).2).transport =
        (t.send x.request x.options w.transport).2 := htransport
    rw [hpaused] at ih
    exact .cons ⟨hreply, hknown⟩ ih

/-- Every attempt, the last one too, gets what comes back in some state of the transport. -/
theorem exists_reply_eq (h : Course t x failed delay w trace r) :
    ∀ a ∈ trace, ∃ s, a.reply = x.counted (t.send x.request x.options s).1 := by
  induction h with
  | @ended failed delay w result h =>
    exact List.forall_mem_singleton.mpr ⟨w.transport, (x.attempt_spec t w).1⟩
  | @broken failed delay w e h hdelay =>
    exact List.forall_mem_singleton.mpr ⟨w.transport, (x.attempt_spec t w).1⟩
  | @again failed delay longer w e rest r h hdelay course ih =>
    exact List.forall_mem_cons.mpr ⟨⟨w.transport, (x.attempt_spec t w).1⟩, ih⟩

/-- Every attempt sends the request of the exchange, once, when it begins. -/
theorem sends (h : Course t x failed delay w trace r) :
    r.2.sends = w.sends ++ trace.map fun a => (x.request, x.options, a.begun) := by
  induction h with
  | @ended failed delay w result h => exact (x.attempt_spec t w).2.2.2
  | @broken failed delay w e h hdelay =>
    rw [paused, World.sends_wait, World.sends_note, (x.attempt_spec t w).2.2.2]
    rfl
  | @again failed delay longer w e rest r h hdelay course ih =>
    rw [ih, paused, World.sends_wait, World.sends_note, (x.attempt_spec t w).2.2.2,
      List.append_assoc]
    rfl

/-- A course begins at once, and its first pause is the one that is given. -/
theorem begins (h : Course t x failed delay w trace r) {a : Attempt}
    (ha : trace.head? = some a) : a.begun = w.now ∧ ∀ d, a.pause = some d → d = delay := by
  cases h with
  | ended h =>
    rw [← Option.some.inj ha]
    exact ⟨rfl, fun d hd => nomatch hd⟩
  | broken h hdelay =>
    rw [← Option.some.inj ha]
    exact ⟨rfl, fun d hd => (Option.some.inj hd).symm⟩
  | again h hdelay course =>
    rw [← Option.some.inj ha]
    exact ⟨rfl, fun d hd => (Option.some.inj hd).symm⟩

/-- **One pause between two attempts**, and the pauses go on by their products. -/
theorem precedes (h : Course t x failed delay w trace r) :
    trace.IsChain (Attempt.Precedes x.policy) := by
  induction h with
  | ended h => exact .singleton _
  | broken h hdelay => exact .singleton _
  | @again failed delay longer w e rest r h hdelay course ih =>
    obtain ⟨b, rest, rfl⟩ := List.exists_cons_of_ne_nil course.ne_nil
    obtain ⟨hbegun, hpause⟩ := course.begins rfl
    exact .cons_cons ⟨delay, longer, rfl, hdelay, hbegun, hpause⟩ ih

/-- No pause follows the last attempt, unless it is one without a product. -/
theorem ends (h : Course t x failed delay w trace r) {a : Attempt}
    (ha : trace.getLast? = some a) :
    (a.pause = none → r.2.now = a.known) ∧ ∀ d, a.pause = some d → x.policy.next? d = none := by
  induction h with
  | ended h =>
    rw [← Option.some.inj ha]
    exact ⟨fun _ => rfl, fun d hd => nomatch hd⟩
  | broken h hdelay =>
    rw [← Option.some.inj ha]
    refine ⟨fun hp => (nomatch hp), fun d hd => ?_⟩
    rw [← Option.some.inj hd]
    exact hdelay
  | again h hdelay course ih =>
    rw [List.getLast?_cons_of_ne_nil course.ne_nil] at ha
    exact ih ha

/-- **What a course comes to**: the reply of the last attempt, which is not followed by another, or
no reply where that could not be counted or where the pause after it has no product. -/
theorem result_eq (h : Course t x failed delay w trace r) {a : Attempt}
    (ha : trace.getLast? = some a) :
    if a.pause.isSome then r.1 = .error .pause
    else if counterLimit ≤ failed + trace.length ∧ a.reply.toOption = none then
      r.1 = .error .counter
    else r.1 = .ok a.reply ∧ (IsMendable a.reply → x.retries < failed + trace.length) := by
  induction h with
  | @ended failed delay w result h =>
    rw [← Option.some.inj ha]
    exact sequel_eq_ended_iff.mp h
  | @broken failed delay w e h hdelay =>
    rw [← Option.some.inj ha]
    rfl
  | @again failed delay longer w e rest r h hdelay course ih =>
    rw [List.getLast?_cons_of_ne_nil course.ne_nil] at ha
    have hlength : failed + 1 + rest.length = failed + (rest.length + 1) := by omega
    rw [List.length_cons, ← hlength]
    exact ih ha

/-- **What a course comes to depends on the answers of the transport only.**  The states of two
transports may differ, as long as the answers to the request agree throughout. -/
theorem result_congr {τ : Type} {t' : Transport τ} {R : σ → τ → Prop}
    (hsend : ∀ s s', R s s' →
      (t.send x.request x.options s).1 = (t'.send x.request x.options s').1 ∧
        R (t.send x.request x.options s).2 (t'.send x.request x.options s').2)
    (h : Course t x failed delay w trace r) {v : World τ} (hv : R w.transport v.transport) :
    (x.attempts t' failed delay v).1 = r.1 := by
  have hattempt : ∀ {w : World σ} {v : World τ}, R w.transport v.transport →
      (x.attempt t w).1 = (x.attempt t' v).1 ∧
        R (x.attempt t w).2.transport (x.attempt t' v).2.transport := by
    intro w v hwv
    obtain ⟨hreply, htransport⟩ := hsend _ _ hwv
    rw [(x.attempt_spec t w).1, (x.attempt_spec t' v).1, (x.attempt_spec t w).2.1,
      (x.attempt_spec t' v).2.1, hreply]
    exact ⟨rfl, htransport⟩
  induction h generalizing v with
  | ended h =>
    rw [(hattempt hv).1] at h
    rw [attempts_of_ended h]
  | broken h hdelay =>
    rw [(hattempt hv).1] at h
    rw [attempts_of_again h, hdelay]
    rfl
  | again h hdelay course ih =>
    have htransport := (hattempt hv).2
    rw [(hattempt hv).1] at h
    rw [attempts_of_again h, hdelay]
    exact ih htransport

end Course

/-- The reply to an exchange depends on the state of the transport only. -/
theorem run_reply_eq (x : Exchange) {w v : World σ} (h : w.transport = v.transport) :
    (x.run t w).1 = (x.run t v).1 := by
  obtain ⟨trace, hcourse⟩ := exists_course t x 0 x.policy.initialDelay w
  have hsend : ∀ s s', s = s' →
      (t.send x.request x.options s).1 = (t.send x.request x.options s').1 ∧
        (t.send x.request x.options s).2 = (t.send x.request x.options s').2 := by
    rintro s _ rfl
    exact ⟨rfl, rfl⟩
  exact (hcourse.result_congr hsend h).symm

/-! ## Settled exchanges -/

/-- How an exchange is settled: by attempts that fail in a way that another one may mend, each with
a pause after it, and then by one that is the last. -/
structure Settles (t : Transport σ) (x : Exchange) (w : World σ) (trace : List Attempt)
    (last : Attempt) (u : World σ) : Prop where
  getLast?_eq : trace.getLast? = some last
  length_le : trace.length ≤ x.retries + 1
  /-- Each attempt gets what comes back for the request the next time, as far as it is in time. -/
  answers :
    List.Forall₂ (fun a d => a.reply = x.counted d ∧ a.known = a.begun + min d.latency x.limit)
      trace (t.deliveries x.request x.options trace.length w.transport)
  /-- Each attempt sends the request once, and there is nothing else that is sent. -/
  sends : u.sends = w.sends ++ trace.map fun a => (x.request, x.options, a.begun)
  isMendable : ∀ a ∈ trace.dropLast, IsMendable a.reply
  begins : ∀ a, trace.head? = some a →
    a.begun = w.now ∧ ∀ d, a.pause = some d → d = x.policy.initialDelay
  precedes : trace.IsChain (Attempt.Precedes x.policy)
  /-- A pause after the last attempt is one without a product. -/
  ends : (last.pause = none → u.now = last.known) ∧
    ∀ d, last.pause = some d → x.policy.next? d = none

theorem exists_settles (t : Transport σ) (x : Exchange) (w : World σ) :
    ∃ trace last, Course t x 0 x.policy.initialDelay w trace (x.run t w) ∧
      x.Settles t w trace last (x.run t w).2 := by
  obtain ⟨trace, h⟩ := exists_course t x 0 x.policy.initialDelay w
  have hlast := List.getLast?_eq_some_getLast h.ne_nil
  exact ⟨trace, trace.getLast h.ne_nil, h, hlast, h.length_le, h.answers, h.sends, h.isMendable,
    fun _ ha => h.begins ha, h.precedes, h.ends hlast⟩

/-- **An exchange is settled by its last attempt.**  It makes at least one attempt, and at most one
more than there are retries.  An attempt that outlasts its limit fails with a timeout, which another
one may mend.  What the exchange comes to is the reply of the last attempt, which no further one may
mend unless it was the last that is allowed.  There are two exceptions: the last attempt has failed
and does not fit the counter, or the product of a pause is no duration. -/
theorem run_settles (t : Transport σ) (x : Exchange) (w : World σ)
    (hretries : x.retries < counterLimit) :
    (∀ d, x.limit < d.latency → x.counted d = .error (.timeout x.options.timeout) ∧
      IsMendable (x.counted d)) ∧
    ∃ trace last, x.Settles t w trace last (x.run t w).2 ∧
      (∀ reply, (x.run t w).1 = .ok reply ↔ reply = last.reply ∧ last.pause = none ∧
        ¬ (trace.length = counterLimit ∧ last.reply.toOption = none)) ∧
      (last.pause = none → trace.length ≤ x.retries → ¬ IsMendable last.reply) ∧
      ((x.run t w).1 = .error .counter ↔
        trace.length = counterLimit ∧ last.reply.toOption = none ∧ last.pause = none) ∧
      ((x.run t w).1 = .error .pause ↔ ∃ d, last.pause = some d) := by
  constructor
  · intro d hd
    have hcounted : x.counted d = x.expired := if_neg (Nat.not_le_of_lt hd)
    rw [hcounted]
    exact ⟨rfl, _, rfl, rfl⟩
  · obtain ⟨trace, last, hcourse, hsettles⟩ := exists_settles t x w
    have hresult := hcourse.result_eq hsettles.getLast?_eq
    have hlength := hsettles.length_le
    refine ⟨trace, last, hsettles, ?_⟩
    have hfull : counterLimit ≤ 0 + trace.length ↔ trace.length = counterLimit := by omega
    simp only [hfull] at hresult
    cases hpause : last.pause with
    | some d =>
      rw [hpause] at hresult
      have hresult : (x.run t w).1 = .error .pause := hresult
      rw [hresult]
      simp
    | none =>
      rw [hpause] at hresult
      rw [if_neg (by decide)] at hresult
      split at hresult
      · rename_i hcount
        rw [hresult]
        refine ⟨?_, fun _ hle => ?_, ?_, ?_⟩
        · simp [hcount]
        · omega
        · simp [hcount]
        · simp
      · rename_i hcount
        obtain ⟨hreply, hmendable⟩ := hresult
        rw [hreply]
        refine ⟨?_, fun _ hle hm => ?_, ?_, ?_⟩
        · exact fun reply => ⟨fun h => ⟨(Except.ok.inj h).symm, rfl, hcount⟩, fun h => by rw [h.1]⟩
        · have := hmendable hm
          omega
        · simpa using fun hfull hnone => hcount ⟨hfull, hnone⟩
        · simp

/-- Up to two retries, and ten milliseconds for each attempt. -/
def flaky : Exchange where
  request := ⟨.get, "http://h/", [], none, none⟩
  options := ⟨.ofMilliseconds 10, false, false⟩
  retries := 2
  policy := {}

/-- A response that comes too late, a failure, and a response that comes just in time. -/
def flakyScript : Script where
  queue := [⟨11, .ok ⟨200, [], []⟩⟩, ⟨0, .error (.network "reset")⟩, ⟨10, .ok ⟨201, [], []⟩⟩]
  routes := []
  fallback := ⟨0, .ok ⟨200, [], []⟩⟩

/-- `flaky` is settled by its third attempt. -/
theorem run_settles_flaky :
    let t := Transport.scripted "script"
    let w := World.start flakyScript
    flaky.retries < counterLimit ∧ ∃ trace last, flaky.Settles t w trace last (flaky.run t w).2 ∧
      (flaky.run t w).1 = .ok last.reply ∧ trace.length = 3 ∧
      last.reply.toOption.map Response.status = some 201 := by
  intro t w
  have hretries : flaky.retries < counterLimit := by decide
  have hsends : (flaky.run t w).2.sends.length = 3 := by decide +kernel
  have hstatus : ((flaky.run t w).1.toOption.bind Except.toOption).map Response.status =
      some 201 := by decide +kernel
  obtain ⟨-, trace, last, hsettles, hok, -, -, -⟩ := run_settles t flaky w hretries
  have hlength : 0 + trace.length = 3 := by
    rw [hsettles.sends, List.length_append, List.length_map] at hsends
    exact hsends
  cases hrun : (flaky.run t w).1 with
  | error b =>
    rw [hrun] at hstatus
    cases hstatus
  | ok reply =>
    obtain ⟨rfl, -, -⟩ := (hok reply).mp hrun
    rw [hrun] at hstatus
    exact ⟨hretries, trace, last, hsettles, rfl, by omega, hstatus⟩

/-- **A count that runs full.**  Where as many retries are allowed as the counter holds, and every
attempt fails in a way that another one may mend, there is no reply. -/
theorem run_breaks (hretries : x.retries + 1 = counterLimit)
    (hfails : ∀ s, IsMendable (x.counted (t.send x.request x.options s).1)) (w : World σ)
    (reply : Reply) : (x.run t w).1 ≠ .ok reply := by
  obtain ⟨trace, last, hcourse, hsettles⟩ := exists_settles t x w
  have hresult := hcourse.result_eq hsettles.getLast?_eq
  obtain ⟨s, hs⟩ := hcourse.exists_reply_eq last (List.mem_of_getLast? hsettles.getLast?_eq)
  have hmendable : IsMendable last.reply := hs ▸ hfails s
  have hnone : last.reply.toOption = none := by
    obtain ⟨e, he, -⟩ := hmendable
    rw [he]
    rfl
  intro hrun
  rw [hrun] at hresult
  split at hresult
  · cases hresult
  split at hresult
  · cases hresult
  · rename_i hcounted
    have := hresult.2 hmendable
    exact hcounted ⟨by omega, hnone⟩

/-- An exchange with as many retries as a configuration may ask for. -/
def tireless : Exchange := { flaky with retries := 4294967295 }

/-- Against a transport that refuses everything, `tireless` comes to no reply, where it is to give
the refusal of its last attempt. -/
theorem tireless_breaks :
    let t := Transport.constant ⟨0, .error (.connection "refused")⟩
    Config.retriesOf (.int 4294967295) = .ok tireless.retries ∧
      IsMendable (tireless.counted ⟨0, .error (.connection "refused")⟩) ∧
      ∀ reply, (tireless.run t (World.start ())).1 ≠ .ok reply := by
  intro t
  have hretries : tireless.retries + 1 = counterLimit := by decide
  have hfails : IsMendable (tireless.counted ⟨0, .error (.connection "refused")⟩) :=
    ⟨_, rfl, rfl⟩
  exact ⟨rfl, hfails, run_breaks hretries (fun _ => hfails) (World.start ())⟩

end Exchange

end HttpSuite
