import HttpSuite.Run.World

/-!
# Exchanges

An exchange sends one request, and again after a pause when an attempt fails in a way that another
one may mend.  An attempt that outlasts the limit fails with a timeout; a reply that arrives at the
limit is in time.

A failed attempt is counted before anything else is asked of it, and the counter has 32 bits.  The
pause after the next failure is a product that need not be a duration, and it is computed when the
pause before it is over.  Where the count or the product has no value, the exchange breaks off.

`Exchange.run` carries out one exchange alone.  `Exchange.State` is an exchange among others: each
`step` goes on as far as the next point in time at which something happens.  Both go on from an
attempt by `Exchange.sequel` and from a pause by `RetryPolicy.next?`.
-/

namespace HttpSuite

/-- The pauses between attempts. -/
structure RetryPolicy where
  initialDelay : Duration := .ofMilliseconds 100
  multiplier : Binary64 := Binary64.ofInt 2
  maxDelay : Duration := .ofMilliseconds 5000

/-- The pause after the next failure, if the product is a duration. -/
def RetryPolicy.next? (p : RetryPolicy) (delay : Duration) : Option Duration :=
  (delay.times? p.multiplier).map fun product => product.min p.maxDelay

structure Exchange where
  request : Request
  options : SendOptions
  retries : Nat
  policy : RetryPolicy

namespace Exchange

/-- The first number that does not fit the counter of failed attempts. -/
def counterLimit : Nat := Nat.pow 2 32

/-- The limit of an attempt in milliseconds. -/
def limit (x : Exchange) : Nat := x.options.timeout.milliseconds

/-- The reply of an attempt that outlasts its limit. -/
def expired (x : Exchange) : Reply := .error (.timeout x.options.timeout)

/-- What follows an attempt. -/
inductive Sequel where
  | ended (result : Except Break Reply)
  /-- Another attempt may mend the error. -/
  | again (e : TransportError)

/-- What follows the reply to an attempt after a number of failed ones. -/
def sequel (x : Exchange) (failed : Nat) : Reply → Sequel
  | .ok response => .ended (.ok (.ok response))
  | .error e =>
    if counterLimit ≤ failed + 1 then .ended (.error .counter)
    else if x.retries < failed + 1 ∨ e.isRetryable = false then .ended (.ok (.error e))
    else .again e

theorem lt_retries_of_sequel {x : Exchange} {failed : Nat} {reply : Reply} {e : TransportError}
    (h : x.sequel failed reply = .again e) : failed < x.retries := by
  cases reply with
  | ok response => cases h
  | error e' =>
    rw [sequel] at h
    split at h
    · cases h
    · split at h
      · cases h
      · omega

/-- The message before another attempt, after a number of failed ones. -/
def retryNote (x : Exchange) (e : TransportError) (failed : Nat) : Note :=
  .log .warn (x.request.method.name ++ " " ++ x.request.url ++ " failed (" ++ e.message ++
    "), retry " ++ toString failed ++ "/" ++ toString x.retries)

variable {σ : Type} (t : Transport σ)

/-- One attempt: its reply, at the time when it is known. -/
def attempt (x : Exchange) (w : World σ) : Reply × World σ :=
  let (delivery, w) := w.send t x.request x.options
  if delivery.latency ≤ x.limit then (delivery.reply, w.wait delivery.latency)
  else (x.expired, w.wait x.limit)

/-- The world after a failed attempt and the pause that follows it. -/
def paused (x : Exchange) (e : TransportError) (failed : Nat) (delay : Duration) (w : World σ) :
    World σ :=
  (w.note (x.retryNote e failed)).wait delay.milliseconds

/-- Attempts after a number of failed ones, with the pause after the next failure. -/
def attempts (x : Exchange) (failed : Nat) (delay : Duration) (w : World σ) : Ran σ Reply :=
  let (reply, w) := x.attempt t w
  match _h : x.sequel failed reply with
  | .ended result => (result, w)
  | .again e =>
    let w := x.paused e (failed + 1) delay w
    (x.policy.next? delay).elim (.error .pause, w) fun delay => attempts x (failed + 1) delay w
termination_by x.retries - failed
decreasing_by
  have := lt_retries_of_sequel _h
  omega

/-- Carries out an exchange. -/
def run (x : Exchange) (w : World σ) : Ran σ Reply := x.attempts t 0 x.policy.initialDelay w

/-! ## Exchanges among others -/

/-- What an exchange waits for. -/
inductive Phase where
  /-- Nothing has been sent. -/
  | idle
  | sending (arrival deadline : Nat) (reply : Reply)
  | pausing (wake : Nat)
  | ended (result : Except Break Reply)

/-- An exchange with the number of failed attempts and the pause after the next failure. -/
structure State where
  exchange : Exchange
  failed : Nat
  delay : Duration
  phase : Phase

namespace State

/-- The exchange before its first attempt. -/
def idle (x : Exchange) : State := ⟨x, 0, x.policy.initialDelay, .idle⟩

/-- Sends the request. -/
def send (s : State) (w : World σ) : State × World σ :=
  let (delivery, w) := w.send t s.exchange.request s.exchange.options
  let phase := .sending (w.now + delivery.latency) (w.now + s.exchange.limit) delivery.reply
  ({ s with phase := phase }, w)

/-- What follows the reply of an attempt. -/
def settle (s : State) (reply : Reply) (w : World σ) : State × World σ :=
  match s.exchange.sequel s.failed reply with
  | .ended result => ({ s with phase := .ended result }, w)
  | .again e =>
    let w := w.note (s.exchange.retryNote e (s.failed + 1))
    ({ s with failed := s.failed + 1, phase := .pausing (w.now + s.delay.milliseconds) }, w)

/-- What follows a pause. -/
def resume (s : State) (w : World σ) : State × World σ :=
  (s.exchange.policy.next? s.delay).elim ({ s with phase := .ended (.error .pause) }, w)
    fun delay => send t { s with delay := delay } w

/-- The next thing that happens now, if there is one. -/
def step (s : State) (w : World σ) : Option (State × World σ) :=
  match s.phase with
  | .idle => some (s.send t w)
  | .sending arrival deadline reply =>
    if arrival ≤ w.now then some (s.settle reply w)
    else if deadline ≤ w.now then some (s.settle s.exchange.expired w)
    else none
  | .pausing wake => if wake ≤ w.now then some (s.resume t w) else none
  | .ended _ => none

/-- An upper bound of the number of steps ahead. -/
def weight (s : State) : Nat :=
  match s.phase with
  | .idle | .pausing _ => 2 * (s.exchange.retries - s.failed) + 2
  | .sending .. => 2 * (s.exchange.retries - s.failed) + 1
  | .ended _ => 0

theorem weight_settle (s : State) (reply : Reply) (w : World σ) :
    (s.settle reply w).1.weight < 2 * (s.exchange.retries - s.failed) + 1 := by
  unfold settle
  split
  · simp [weight]
  · rename_i e h
    have := lt_retries_of_sequel h
    simp only [weight]
    omega

theorem weight_resume (s : State) (w : World σ) :
    (s.resume t w).1.weight < 2 * (s.exchange.retries - s.failed) + 2 := by
  unfold resume
  cases s.exchange.policy.next? s.delay <;> simp [send, weight]

theorem weight_of_step {s : State} {w : World σ} {r : State × World σ} (h : s.step t w = some r) :
    r.1.weight < s.weight := by
  unfold step at h
  split at h
  · rename_i hp
    cases h
    simp [send, weight, hp]
  · rename_i arrival deadline reply hp
    have hw : s.weight = 2 * (s.exchange.retries - s.failed) + 1 := by simp [weight, hp]
    rw [hw]
    split at h
    · cases h
      exact weight_settle s reply w
    · split at h
      · cases h
        exact weight_settle s _ w
      · cases h
  · rename_i wake hp
    have hw : s.weight = 2 * (s.exchange.retries - s.failed) + 2 := by simp [weight, hp]
    rw [hw]
    split at h
    · rw [← Option.some.inj h]
      exact weight_resume t s w
    · cases h
  · cases h

/-- Goes on as long as something happens now. -/
def advance (s : State) (w : World σ) : State × World σ :=
  match _h : s.step t w with
  | none => (s, w)
  | some r => advance r.1 r.2
termination_by s.weight
decreasing_by exact weight_of_step t _h

/-- What an exchange that has ended has come to. -/
def result? (s : State) : Option (Except Break Reply) :=
  match s.phase with
  | .ended result => some result
  | _ => none

/-- The reply that an exchange has come to. -/
def reply? (s : State) : Option Reply := s.result?.bind Except.toOption

/-- Why an exchange has broken off. -/
def break? (s : State) : Option Break :=
  match s.phase with
  | .ended (.error b) => some b
  | _ => none

/-- The next point in time at which something happens. -/
def wake? (s : State) : Option Nat :=
  match s.phase with
  | .idle => some 0
  | .sending arrival deadline _ => some (min arrival deadline)
  | .pausing wake => some wake
  | .ended _ => none

/-- Goes on with each exchange in order, as far as one that breaks off. -/
def advanceAll : List (Option State) → World σ → List (Option State) × World σ
  | [], w => ([], w)
  | none :: rest, w =>
    let (rest, w) := advanceAll rest w
    (none :: rest, w)
  | some s :: rest, w =>
    let (s, w) := s.advance t w
    if s.break?.isSome then (some s :: rest, w)
    else
      let (rest, w) := advanceAll rest w
      (some s :: rest, w)

/-- The times at which something happens in one of the exchanges. -/
def wakes (states : List (Option State)) : List Nat :=
  states.filterMap fun s => s.bind wake?

/-- What exchanges have come to: a break where one has broken off, and otherwise the replies when
all have ended. -/
def results? (states : List (Option State)) : Option (Except Break (List (Option Reply))) :=
  match states.findSome? fun s => s.bind break? with
  | some b => some (.error b)
  | none =>
    if (wakes states).isEmpty then some (.ok (states.map fun s => s.bind reply?)) else none

/-- The sum of the weights. -/
def total : List (Option State) → Nat
  | [] => 0
  | none :: rest => total rest
  | some s :: rest => s.weight + total rest

theorem now_of_settle (s : State) (reply : Reply) (w : World σ) :
    (s.settle reply w).2.now = w.now := by
  unfold settle
  split <;> rfl

theorem now_of_resume (s : State) (w : World σ) : (s.resume t w).2.now = w.now := by
  unfold resume
  cases s.exchange.policy.next? s.delay <;> rfl

theorem now_of_step {s : State} {w : World σ} {r : State × World σ} (h : s.step t w = some r) :
    r.2.now = w.now := by
  unfold step at h
  split at h
  · cases h
    rfl
  · split at h
    · cases h
      exact now_of_settle s _ w
    · split at h
      · cases h
        exact now_of_settle s _ w
      · cases h
  · split at h
    · rw [← Option.some.inj h]
      exact now_of_resume t s w
    · cases h
  · cases h

theorem now_of_advance (s : State) (w : World σ) : (s.advance t w).2.now = w.now := by
  fun_induction advance t s w with
  | case1 => rfl
  | case2 s w r h ih => rw [ih, now_of_step t h]

theorem weight_advance_le (s : State) (w : World σ) : (s.advance t w).1.weight ≤ s.weight := by
  fun_induction advance t s w with
  | case1 => exact Nat.le_refl _
  | case2 s w r h ih => exact Nat.le_trans ih (Nat.le_of_lt (weight_of_step t h))

theorem step_isSome_of_wake {s : State} {w : World σ} {k : Nat} (h : s.wake? = some k)
    (hk : k ≤ w.now) : (s.step t w).isSome := by
  cases hp : s.phase with
  | idle => simp [step, hp]
  | sending arrival deadline reply =>
    simp only [wake?, hp, Option.some.injEq] at h
    simp only [step, hp]
    split
    · rfl
    · split
      · rfl
      · omega
  | pausing wake =>
    simp only [wake?, hp, Option.some.injEq] at h
    simp [step, hp, h, hk]
  | ended result => simp [wake?, hp] at h

theorem weight_advance_lt {s : State} {w : World σ} {k : Nat} (h : s.wake? = some k)
    (hk : k ≤ w.now) : (s.advance t w).1.weight < s.weight := by
  have hs := step_isSome_of_wake t h hk
  obtain ⟨r, hr⟩ := Option.isSome_iff_exists.mp hs
  rw [advance]
  split
  · rename_i hn
    simp [hr] at hn
  · rename_i r' hr'
    exact Nat.lt_of_le_of_lt (weight_advance_le t _ _) (weight_of_step t hr')

/-- An exchange that breaks off has done something. -/
theorem weight_advance_of_break {s : State} {w : World σ} (h : s.break? = none)
    (hb : (s.advance t w).1.break?.isSome = true) : (s.advance t w).1.weight < s.weight := by
  rw [advance] at hb ⊢
  split at hb
  · simp [h] at hb
  · rename_i r hr
    exact Nat.lt_of_le_of_lt (weight_advance_le t _ _) (weight_of_step t hr)

theorem advanceAll_some (s : State) (rest : List (Option State)) (w : World σ) :
    advanceAll t (some s :: rest) w =
      if (s.advance t w).1.break?.isSome then (some (s.advance t w).1 :: rest, (s.advance t w).2)
      else (some (s.advance t w).1 :: (advanceAll t rest (s.advance t w).2).1,
        (advanceAll t rest (s.advance t w).2).2) := rfl

theorem total_advanceAll_le (states : List (Option State)) (w : World σ) :
    total (advanceAll t states w).1 ≤ total states := by
  induction states generalizing w with
  | nil => exact Nat.le_refl _
  | cons s rest ih =>
    cases s with
    | none => simpa [advanceAll, total] using ih w
    | some s =>
      have := weight_advance_le t s w
      have := ih (s.advance t w).2
      rw [advanceAll_some]
      split <;> simp only [total] <;> omega

theorem total_advanceAll_lt {states : List (Option State)} {w : World σ} {k : Nat}
    (hb : ∀ s, some s ∈ states → s.break? = none) (h : k ∈ wakes states) (hk : k ≤ w.now) :
    total (advanceAll t states w).1 < total states := by
  induction states generalizing w with
  | nil => simp [wakes] at h
  | cons s rest ih =>
    have hrest : ∀ s, some s ∈ rest → s.break? = none := fun s hs =>
      hb s (List.mem_cons_of_mem _ hs)
    cases s with
    | none =>
      have h' : k ∈ wakes rest := by simpa [wakes] using h
      simpa [advanceAll, total] using ih hrest h' hk
    | some s =>
      have hnow := now_of_advance t s w
      have hle := weight_advance_le t s w
      rw [advanceAll_some]
      split
      · rename_i hbreaks
        have := weight_advance_of_break t (hb s (List.mem_cons_self ..)) hbreaks
        simp only [total]
        omega
      · simp only [total]
        by_cases h' : k ∈ wakes rest
        · have := ih hrest h' (w := (s.advance t w).2) (by omega)
          omega
        · have hs : s.wake? = some k := by
            cases hm : s.wake? with
            | none => exact absurd (by simpa [wakes, hm] using h) h'
            | some m =>
              have hcases : k = m ∨ k ∈ wakes rest := by simpa [wakes, hm] using h
              rw [hcases.resolve_right h']
          have := weight_advance_lt t hs hk
          have := total_advanceAll_le t rest (s.advance t w).2
          omega

/-- Exchanges that have come to nothing yet: none has broken off, and one waits. -/
theorem of_results?_eq_none {states : List (Option State)} (h : results? states = none) :
    (∀ s, some s ∈ states → s.break? = none) ∧ ∃ k, (wakes states).min? = some k := by
  unfold results? at h
  split at h
  · cases h
  · rename_i hb
    split at h
    · cases h
    · rename_i hw
      refine ⟨fun s hs => List.findSome?_eq_none_iff.mp hb _ hs, ?_⟩
      cases hm : (wakes states).min? with
      | none => simp [List.min?_eq_none_iff.mp hm] at hw
      | some k => exact ⟨k, rfl⟩

/-- The world at a later point in time. -/
def jump (w : World σ) (time : Nat) : World σ := { w with now := max w.now time }

/-- Goes on until every exchange has ended or one has broken off: always to the next point in time
at which something happens. -/
def finishAll (states : List (Option State)) (w : World σ) : Ran σ (List (Option Reply)) :=
  match _h : results? states with
  | some result => (result, w)
  | none =>
    let r := advanceAll t states (jump w ((wakes states).min?.getD 0))
    finishAll r.1 r.2
termination_by total states
decreasing_by
  obtain ⟨hb, k, hk⟩ := of_results?_eq_none _h
  rw [hk]
  exact total_advanceAll_lt t hb (List.min?_mem hk) (Nat.le_max_right w.now k)

end State

/-- Carries out exchanges side by side; in each instant they go on in their order. -/
def runAll (xs : List (Option Exchange)) (w : World σ) : Ran σ (List (Option Reply)) :=
  let (states, w) := State.advanceAll t (xs.map fun x => x.map State.idle) w
  State.finishAll t states w

end Exchange

end HttpSuite
