import HttpSuite.Proofs.Actions
import HttpSuite.Proofs.Run.Course

/-!
# Transports that answer from what is sent

A transport `Answers` by a function when every delivery is that function of the request and its
options, whatever was sent before.  Against such a transport a program has a value that does not
mention the world at all: `Program.value` goes through the program and puts `Exchange.answered` in
place of every exchange.  Where an exchange breaks off, there is no value.

The main statement is `Program.run_value`: carrying out a program gives its value.  For one exchange
this is a fact about its course, since every attempt comes to the same reply.  For exchanges side by
side it is an invariant of the schedule: each exchange `Follows` its request, that is, it comes to
what the exchange comes to alone, and an attempt that runs out of time is looked at before its reply
comes in.  The second half matters, because an attempt that is looked at too late could be taken for
one that is in time.
-/

namespace HttpSuite

variable {σ α β : Type}

/-- What comes back is a function of the request and its options. -/
def Transport.Answers (t : Transport σ) (answer : Request → SendOptions → Delivery) : Prop :=
  ∀ request options state, (t.send request options state).1 = answer request options

/-- The transport gives one answer to one request, whatever was sent before. -/
def Transport.IsStateless (t : Transport σ) : Prop := ∃ answer, t.Answers answer

/-- The transport that answers by a function and knows nothing else. -/
def Transport.answering (answer : Request → SendOptions → Delivery) : Transport Unit where
  name := "answering"
  send := fun request options state => (answer request options, state)

theorem Transport.answering_answers (answer : Request → SendOptions → Delivery) :
    (Transport.answering answer).Answers answer :=
  fun _ _ _ => rfl

theorem Transport.constant_answers (delivery : Delivery) :
    (Transport.constant delivery).Answers fun _ _ => delivery :=
  fun _ _ _ => rfl

theorem Transport.isStateless_constant (delivery : Delivery) :
    (Transport.constant delivery).IsStateless :=
  ⟨_, Transport.constant_answers delivery⟩

namespace Exchange

variable (answer : Request → SendOptions → Delivery)

/-- What attempts after a number of failed ones come to. -/
def settledFrom (x : Exchange) (failed : Nat) (delay : Duration) : Except Break Reply :=
  (x.attempts (Transport.answering answer) failed delay (World.start ())).1

/-- What an exchange comes to. -/
def settled (x : Exchange) : Except Break Reply := x.settledFrom answer 0 x.policy.initialDelay

/-- The reply to an exchange, if it does not break off. -/
def answered (x : Exchange) : Option Reply := (x.settled answer).toOption

variable {answer} {t : Transport σ}

theorem attempt_answered (h : t.Answers answer) (x : Exchange) (w : World σ) :
    (x.attempt t w).1 = x.counted (answer x.request x.options) := by
  rw [(x.attempt_spec t w).1, h]

/-- Two transports that answer alike settle an exchange alike. -/
theorem attempts_answered (h : t.Answers answer) (x : Exchange) (failed : Nat) (delay : Duration)
    (w : World σ) : (x.attempts t failed delay w).1 = x.settledFrom answer failed delay := by
  obtain ⟨trace, hcourse⟩ := exists_course t x failed delay w
  have hsend : ∀ (s : σ) (s' : Unit), True →
      (t.send x.request x.options s).1 =
        ((Transport.answering answer).send x.request x.options s').1 ∧ True :=
    fun s _ _ => ⟨h x.request x.options s, trivial⟩
  exact (hcourse.result_congr hsend trivial).symm

theorem run_answered (h : t.Answers answer) (x : Exchange) (w : World σ) :
    (x.run t w).1 = x.settled answer :=
  attempts_answered h x 0 x.policy.initialDelay w

theorem settledFrom_of_ended {x : Exchange} {failed : Nat} {result : Except Break Reply}
    (h : x.sequel failed (x.counted (answer x.request x.options)) = .ended result)
    (delay : Duration) : x.settledFrom answer failed delay = result := by
  rw [← attempt_answered (Transport.answering_answers answer) x (World.start ())] at h
  rw [settledFrom, attempts_of_ended h]

theorem settledFrom_of_again {x : Exchange} {failed : Nat} {e : TransportError}
    (h : x.sequel failed (x.counted (answer x.request x.options)) = .again e) (delay : Duration) :
    x.settledFrom answer failed delay =
      (x.policy.next? delay).elim (.error .pause) (x.settledFrom answer (failed + 1)) := by
  rw [← attempt_answered (Transport.answering_answers answer) x (World.start ())] at h
  rw [settledFrom, attempts_of_again h]
  cases x.policy.next? delay with
  | none => rfl
  | some longer => exact attempts_answered (Transport.answering_answers answer) x _ longer _

namespace State

variable (answer) in
/-- What an exchange under way comes to. -/
def comesTo (s : State) : Except Break Reply :=
  match s.phase with
  | .idle | .sending .. => s.exchange.settledFrom answer s.failed s.delay
  | .pausing _ =>
    (s.exchange.policy.next? s.delay).elim (.error .pause) (s.exchange.settledFrom answer s.failed)
  | .ended result => result

variable (answer) in
/-- The attempt under way gets the answer. -/
def Promises (s : State) : Prop :=
  match s.phase with
  | .sending arrival deadline reply =>
    (if arrival ≤ deadline then reply else s.exchange.expired) =
      s.exchange.counted (answer s.exchange.request s.exchange.options)
  | _ => True

/-- A reply that comes in after its attempt has run out of time has not come in yet. -/
def Timely (s : State) (now : Nat) : Prop :=
  match s.phase with
  | .sending arrival deadline _ => deadline < arrival → now < arrival
  | _ => True

variable (answer) in
/-- An exchange on its way to what it comes to alone. -/
structure Follows (now : Nat) (x : Exchange) (s : State) : Prop where
  exchange_eq : s.exchange = x
  comesTo_eq : s.comesTo answer = x.settled answer
  promises : s.Promises answer
  timely : s.Timely now

theorem follows_idle (now : Nat) (x : Exchange) : Follows answer now x (idle x) :=
  ⟨rfl, rfl, trivial, trivial⟩

/-- An exchange that sends next follows its request from then on. -/
theorem follows_send (h : t.Answers answer) {x : Exchange} {s : State} (hx : s.exchange = x)
    (hs : s.exchange.settledFrom answer s.failed s.delay = x.settled answer) (w : World σ) :
    Follows answer w.now x (s.send t w).1 := by
  have hd : (w.send t s.exchange.request s.exchange.options).1 =
      answer s.exchange.request s.exchange.options :=
    h s.exchange.request s.exchange.options w.transport
  have hn : (w.send t s.exchange.request s.exchange.options).2.now = w.now := rfl
  refine ⟨hx, hs, ?_, ?_⟩
  · simp only [Promises, send, counted, hd, hn, Nat.add_le_add_iff_left]
  · simp only [Timely, send, hn]
    omega

/-- The reply that an attempt is to get leads where the attempt did. -/
theorem follows_settle {x : Exchange} {s : State} (hx : s.exchange = x)
    (hs : s.exchange.settledFrom answer s.failed s.delay = x.settled answer) {reply : Reply}
    (hreply : reply = x.counted (answer x.request x.options)) (w : World σ) :
    Follows answer w.now x (s.settle reply w).1 := by
  subst hx hreply
  unfold settle
  split
  · rename_i result h
    rw [settledFrom_of_ended h] at hs
    exact ⟨rfl, hs, trivial, trivial⟩
  · rename_i e h
    rw [settledFrom_of_again h] at hs
    exact ⟨rfl, hs, trivial, trivial⟩

theorem follows_resume (h : t.Answers answer) {x : Exchange} {s : State} (hx : s.exchange = x)
    (hs : (s.exchange.policy.next? s.delay).elim (.error .pause)
      (s.exchange.settledFrom answer s.failed) = x.settled answer) (w : World σ) :
    Follows answer w.now x (s.resume t w).1 := by
  unfold resume
  cases hnext : s.exchange.policy.next? s.delay with
  | none =>
    rw [hnext] at hs
    exact ⟨hx, hs, trivial, trivial⟩
  | some longer =>
    rw [hnext] at hs
    exact follows_send h (s := { s with delay := longer }) hx hs w

/-- **What one step keeps.**  A reply that is looked at in time is the answer. -/
theorem follows_step (h : t.Answers answer) {x : Exchange} {s : State} {w : World σ}
    {r : State × World σ} (hs : Follows answer w.now x s) (hr : s.step t w = some r) :
    Follows answer w.now x r.1 := by
  obtain ⟨hx, hc, hp, ht⟩ := hs
  unfold step at hr
  split at hr
  · rename_i hphase
    simp only [comesTo, hphase] at hc
    cases hr
    exact follows_send h hx hc w
  · rename_i arrival deadline reply hphase
    simp only [Timely, hphase] at ht
    simp only [Promises, hphase] at hp
    simp only [comesTo, hphase] at hc
    rw [hx] at hp
    split at hr
    · cases hr
      rw [if_pos (by omega)] at hp
      exact follows_settle hx hc hp w
    · split at hr
      · cases hr
        rw [if_neg (by omega)] at hp
        rw [hx]
        exact follows_settle hx hc hp w
      · cases hr
  · rename_i wake hphase
    simp only [comesTo, hphase] at hc
    split at hr
    · rw [← Option.some.inj hr]
      exact follows_resume h hx hc w
    · cases hr
  · cases hr

theorem follows_advance (h : t.Answers answer) {x : Exchange} (s : State) (w : World σ)
    (hs : Follows answer w.now x s) : Follows answer w.now x (s.advance t w).1 := by
  fun_induction advance t s w with
  | case1 => exact hs
  | case2 s w r hr ih =>
    rw [now_of_step t hr] at ih
    exact ih (follows_step h hs hr)

variable (answer) in
/-- Exchanges under way, each in its place. -/
def AllFollow (now : Nat) (xs : List (Option Exchange)) (states : List (Option State)) : Prop :=
  List.Forall₂ (Option.Rel (Follows answer now)) xs states

theorem allFollow_idle (now : Nat) (xs : List (Option Exchange)) :
    AllFollow answer now xs (xs.map fun x => x.map idle) := by
  refine List.forall₂_map_right_iff.mpr (List.forall₂_same.mpr fun x _ => ?_)
  cases x with
  | none => exact .none
  | some x => exact .some (follows_idle now x)

theorem now_advanceAll (states : List (Option State)) (w : World σ) :
    (advanceAll t states w).2.now = w.now := by
  induction states generalizing w with
  | nil => rfl
  | cons s states ih =>
    cases s with
    | none => exact ih w
    | some s =>
      rw [advanceAll_some]
      split
      · exact now_of_advance t s w
      · rw [ih, now_of_advance]

theorem allFollow_advanceAll (h : t.Answers answer) {xs : List (Option Exchange)}
    {states : List (Option State)} {now : Nat} (hs : AllFollow answer now xs states)
    (w : World σ) (hw : w.now = now) : AllFollow answer now xs (advanceAll t states w).1 := by
  subst hw
  induction states generalizing xs w with
  | nil =>
    cases hs
    exact .nil
  | cons s states ih =>
    cases hs with
    | cons hsx hrest =>
      cases hsx with
      | none => exact .cons .none (ih w hrest)
      | some hsx =>
        rename_i x s
        have hfirst : Option.Rel (Follows answer w.now) (some x) (some (s.advance t w).1) :=
          .some (follows_advance h s w hsx)
        rw [advanceAll_some]
        split
        · exact .cons hfirst hrest
        · have hnow := now_of_advance t s w
          have hrest := ih (s.advance t w).2 (by rw [hnow]; exact hrest)
          rw [hnow] at hrest
          exact .cons hfirst hrest

/-- Time may move on as far as the next point at which something happens. -/
theorem Timely.max {s : State} {now k : Nat} (h : s.Timely now)
    (hk : ∀ m, s.wake? = some m → k ≤ m) : s.Timely (max now k) := by
  cases hphase : s.phase with
  | sending arrival deadline reply =>
    have hwake : k ≤ min arrival deadline := hk _ (by simp only [wake?, hphase])
    simp only [Timely, hphase] at h ⊢
    omega
  | _ => simp only [Timely, hphase]

theorem AllFollow.timely {xs : List (Option Exchange)} {states : List (Option State)} {now : Nat}
    (hs : AllFollow answer now xs states) {s : State} (hmem : some s ∈ states) : s.Timely now := by
  induction hs with
  | nil => exact nomatch hmem
  | cons hsx _ ih =>
    rcases List.mem_cons.mp hmem with rfl | hmem
    · cases hsx with
      | some hsx => exact hsx.timely
    · exact ih hmem

/-- What exchanges under way come to does not depend on the time. -/
theorem AllFollow.at {xs : List (Option Exchange)} {states : List (Option State)} {now later : Nat}
    (hs : AllFollow answer now xs states) (ht : ∀ s : State, some s ∈ states → s.Timely later) :
    AllFollow answer later xs states := by
  induction hs with
  | nil => exact .nil
  | cons hsx _ ih =>
    refine .cons ?_ (ih fun s hmem => ht s (List.mem_cons_of_mem _ hmem))
    cases hsx with
    | none => exact .none
    | some hsx => exact .some { hsx with timely := ht _ (List.mem_cons_self ..) }

theorem min?_wakes_le {states : List (Option State)} {k : Nat} (hk : (wakes states).min? = some k)
    {s : State} (hmem : some s ∈ states) {m : Nat} (hm : s.wake? = some m) : k ≤ m :=
  (List.min?_eq_some_iff.mp hk).2 m (List.mem_filterMap.mpr ⟨some s, hmem, hm⟩)

/-- Exchanges under way may next be looked at when something happens in one of them. -/
theorem AllFollow.jump {xs : List (Option Exchange)} {states : List (Option State)} {now k : Nat}
    (hs : AllFollow answer now xs states) (hk : (wakes states).min? = some k) :
    AllFollow answer (max now k) xs states :=
  hs.at fun _ hmem => (hs.timely hmem).max fun _ hm => min?_wakes_le hk hmem hm

/-! ### What exchanges under way have come to -/

theorem result?_eq_some_iff {s : State} {result : Except Break Reply} :
    s.result? = some result ↔ s.phase = .ended result := by
  cases hphase : s.phase <;> simp [result?, hphase]

theorem break?_eq_some_iff {s : State} {b : Break} :
    s.break? = some b ↔ s.result? = some (.error b) := by
  rw [result?_eq_some_iff, break?]
  split
  · rename_i b' hphase
    rw [hphase]
    simp
  · rename_i hphase
    exact ⟨fun h => (nomatch h), fun h => absurd h (hphase b)⟩

/-- An exchange waits unless it has ended. -/
theorem result?_isSome_iff (s : State) : s.result?.isSome = true ↔ s.wake? = none := by
  cases hphase : s.phase <;> simp [result?, wake?, hphase]

/-- What an exchange has come to is what it comes to alone. -/
theorem Follows.result_eq {now : Nat} {x : Exchange} {s : State} (hs : Follows answer now x s)
    {result : Except Break Reply} (hr : s.result? = some result) : x.settled answer = result := by
  have hc := hs.comesTo_eq
  simp only [comesTo, result?_eq_some_iff.mp hr] at hc
  exact hc.symm

/-- Where one of several exchanges has broken off, there are no replies. -/
theorem AllFollow.eq_none_of_break {xs : List (Option Exchange)} {states : List (Option State)}
    {now : Nat} (hs : AllFollow answer now xs states) {s : State} (hmem : some s ∈ states)
    {b : Break} (hb : s.break? = some b) : xs.mapM (Option.mapM (answered answer)) = none := by
  obtain ⟨_, hx, hfollows⟩ := exists_left_of_forall₂ hs hmem
  cases hfollows with
  | some hfollows =>
    refine mapM_eq_none_of_mem hx ?_
    rw [Option.mapM_some, answered, hfollows.result_eq (break?_eq_some_iff.mp hb)]
    rfl

/-- Exchanges of which none waits or has broken off have come to their replies. -/
theorem AllFollow.eq_some {xs : List (Option Exchange)} {states : List (Option State)} {now : Nat}
    (hs : AllFollow answer now xs states) (hb : ∀ s, some s ∈ states → s.break? = none)
    (hw : wakes states = []) :
    xs.mapM (Option.mapM (answered answer)) = some (states.map fun s => s.bind reply?) := by
  have hover : ∀ s ∈ states, ∀ s', s = some s' → s'.break? = none ∧ s'.wake? = none := by
    rintro _ hmem s rfl
    exact ⟨hb s hmem, List.filterMap_eq_nil_iff.mp hw _ hmem⟩
  have hall := ((List.forall₂_and_left states xs).mpr ⟨hover, List.Forall₂.flip hs⟩).flip
  refine mapM_eq_some_iff.mpr (List.forall₂_map_right_iff.mpr (hall.imp ?_))
  rintro x s ⟨hs, hfollows⟩
  cases hfollows with
  | none => rfl
  | some hfollows =>
    obtain ⟨hbreak, hwake⟩ := hs _ rfl
    obtain ⟨result, hresult⟩ := Option.isSome_iff_exists.mp ((result?_isSome_iff _).mpr hwake)
    have hx := hfollows.result_eq hresult
    cases result with
    | error b =>
      rw [break?_eq_some_iff.mpr hresult] at hbreak
      cases hbreak
    | ok reply =>
      rw [Option.mapM_some, answered, hx, Option.bind_some, reply?, hresult]
      rfl

/-- **What exchanges side by side come to** is what each of them comes to alone. -/
theorem AllFollow.results_eq {xs : List (Option Exchange)} {states : List (Option State)}
    {now : Nat} (hs : AllFollow answer now xs states)
    {result : Except Break (List (Option Reply))} (hr : results? states = some result) :
    result.toOption = xs.mapM (Option.mapM (answered answer)) := by
  unfold results? at hr
  split at hr
  · rename_i b hb
    obtain ⟨s, hmem, hs'⟩ := List.exists_of_findSome?_eq_some hb
    obtain ⟨s, rfl, hbreak⟩ := Option.bind_eq_some_iff.mp hs'
    rw [hs.eq_none_of_break hmem hbreak, ← Option.some.inj hr]
    rfl
  · rename_i hb
    split at hr
    · rename_i hw
      have hnone : ∀ s, some s ∈ states → s.break? = none :=
        fun s hmem => List.findSome?_eq_none_iff.mp hb _ hmem
      rw [hs.eq_some hnone (List.isEmpty_iff.mp hw), ← Option.some.inj hr]
      rfl
    · cases hr

/-- **What a whole schedule comes to.**  Each turn keeps that every exchange follows its request,
and at the end none waits or one has broken off. -/
theorem finishAll_answered (h : t.Answers answer) {xs : List (Option Exchange)}
    (states : List (Option State)) (w : World σ) (hs : AllFollow answer w.now xs states) :
    (finishAll t states w).1.toOption = xs.mapM (Option.mapM (answered answer)) := by
  fun_induction finishAll t states w with
  | case1 states w result hr => exact hs.results_eq hr
  | case2 states w hr r ih =>
    obtain ⟨-, k, hk⟩ := of_results?_eq_none hr
    refine ih ?_
    rw [now_advanceAll]
    have hjump := hs.jump hk
    have hd : (wakes states).min?.getD 0 = k := by rw [hk, Option.getD_some]
    rw [← hd] at hjump
    exact allFollow_advanceAll h hjump _ rfl

end State

/-- Exchanges side by side come to the replies that each of them comes to alone. -/
theorem runAll_answered (h : t.Answers answer) (xs : List (Option Exchange)) (w : World σ) :
    (runAll t xs w).1.toOption = xs.mapM (Option.mapM (answered answer)) := by
  refine State.finishAll_answered h _ _ ?_
  rw [State.now_advanceAll]
  exact State.allFollow_advanceAll h (State.allFollow_idle w.now xs) w rfl

end Exchange

/-! ## The value of a program -/

namespace Program

/-- What a program comes to where each exchange gets its reply from a function: nothing, if there is
no reply. -/
def value (reply : Exchange → Option Reply) : Program α → Option α
  | done a => some a
  | note _ next => next.value reply
  | sleep _ next => next.value reply
  | exchange x next => (reply x).bind fun r => (next r).value reply
  | exchanges xs next => (xs.mapM (Option.mapM reply)).bind fun rs => (next rs).value reply

variable (reply : Exchange → Option Reply)

@[simp] theorem value_pure (a : α) : (pure a : Program α).value reply = some a := rfl

@[simp] theorem value_bind (p : Program α) (f : α → Program β) :
    (p >>= f).value reply = (p.value reply).bind fun a => (f a).value reply := by
  induction p with
  | done a => rfl
  | note n next ih => exact ih
  | sleep d next ih => exact ih
  | exchange x next ih =>
    rw [value, Option.bind_assoc]
    exact congrArg _ (funext ih)
  | exchanges xs next ih =>
    rw [value, Option.bind_assoc]
    exact congrArg _ (funext ih)

@[simp] theorem value_notes (ns : List Note) : (notes ns).value reply = some () := by
  induction ns with
  | nil => rfl
  | cons n rest ih => exact ih

@[simp] theorem value_perform (x : Exchange) : (perform x).value reply = reply x :=
  Option.bind_fun_some (reply x)

@[simp] theorem value_performAll (xs : List (Option Exchange)) :
    (performAll xs).value reply = xs.mapM (Option.mapM reply) :=
  Option.bind_fun_some _

/-- **Carrying out a program gives its value**, at any time and in any state of the transport. -/
theorem run_value {t : Transport σ} {answer : Request → SendOptions → Delivery}
    (h : t.Answers answer) (p : Program α) (w : World σ) :
    (p.run t w).1.toOption = p.value (Exchange.answered answer) := by
  induction p generalizing w with
  | done a => rfl
  | note n next ih => exact ih _
  | sleep d next ih => exact ih _
  | exchange x next ih =>
    rw [run, Ran.toOption_andThen, Exchange.run_answered h, value]
    exact congrArg _ (funext fun r => ih r _)
  | exchanges xs next ih =>
    rw [run, Ran.toOption_andThen, Exchange.runAll_answered h, value]
    exact congrArg _ (funext fun rs => ih rs _)

end Program

end HttpSuite
