import HttpSuite.Proofs.Actions
import HttpSuite.Proofs.Run.Acts

/-!
# Signals

A run reaches the outside world in two ways: it pauses for the user, and it sends requests.  The
signals of a world are these two kinds of events, in order.  Acts say neither how often an exchange
sends its request nor in what order exchanges side by side do; signals do.

An exchange sends once for each attempt, so at least once and at most once more than it has retries,
and nothing else is seen of it: `Exchange.exists_tries_run` for one that is carried out alone.
Exchanges side by side take turns in some way (`Merges`), and where one of them breaks off, the
others may be left with fewer attempts, or before their first.  For these it takes going backwards:
what may still be seen of an exchange before a step is what may still be seen after it, behind the
signal of the step (`Exchange.State.tries_of_step`).
-/

namespace HttpSuite

variable {σ α β : Type}

/-! ## The signals of a world -/

inductive Signal where
  | paused (message : String)
  | sent (request : Request) (options : SendOptions)

def Note.signal? : Note → Option Signal
  | pause message => some (.paused message)
  | _ => none

def Event.signal? : Event → Option Signal
  | sent request options _ => some (.sent request options)
  | noted n _ => n.signal?

namespace World

/-- All that the outside world has seen so far, in order. -/
def signals (w : World σ) : List Signal := w.events.filterMap Event.signal?

/-- What happens from one world to another gives these signals. -/
def Gives (w w' : World σ) (signals : List Signal) : Prop :=
  ∃ events, w'.events = w.events ++ events ∧ events.filterMap Event.signal? = signals

theorem Gives.refl (w : World σ) : w.Gives w [] := ⟨[], (List.append_nil _).symm, rfl⟩

theorem Gives.trans {w w' w'' : World σ} {first later : List Signal} (h : w.Gives w' first)
    (h' : w'.Gives w'' later) : w.Gives w'' (first ++ later) := by
  obtain ⟨events, hevents, rfl⟩ := h
  obtain ⟨events', hevents', rfl⟩ := h'
  refine ⟨events ++ events', ?_, List.filterMap_append⟩
  rw [hevents', hevents, List.append_assoc]

theorem gives_note (w : World σ) (n : Note) : w.Gives (w.note n) n.signal?.toList := by
  refine ⟨[.noted n w.now], List.reverse_cons, ?_⟩
  cases n <;> rfl

theorem gives_send (t : Transport σ) (w : World σ) (request : Request) (options : SendOptions) :
    w.Gives (w.send t request options).2 [.sent request options] :=
  ⟨[.sent request options w.now], List.reverse_cons, rfl⟩

theorem Gives.signals_eq {w w' : World σ} {signals : List Signal} (h : w.Gives w' signals) :
    w'.signals = w.signals ++ signals := by
  obtain ⟨events, hevents, rfl⟩ := h
  rw [World.signals, hevents, List.filterMap_append]
  rfl

end World

/-! ## Merges -/

/-- The second list is made of the lists in the first one, each of them in its own order. -/
inductive Merges : List (List α) → List α → Prop where
  | nil {parts : List (List α)} (h : ∀ part ∈ parts, part = []) : Merges parts []
  | cons {before after : List (List α)} {part rest : List α} (x : α)
      (h : Merges (before ++ part :: after) rest) :
      Merges (before ++ (x :: part) :: after) (x :: rest)

namespace Merges

theorem prepend {before after : List (List α)} {part rest : List α}
    (h : Merges (before ++ part :: after) rest) (first : List α) :
    Merges (before ++ (first ++ part) :: after) (first ++ rest) := by
  induction first with
  | nil => exact h
  | cons x first ih => exact ih.cons x

theorem cons_nil {parts : List (List α)} {rest : List α} (h : Merges parts rest) :
    Merges ([] :: parts) rest := by
  induction h with
  | nil h => exact .nil (List.forall_mem_cons.mpr ⟨rfl, h⟩)
  | @cons before after part rest x _ ih =>
    have hlater : Merges (([] :: before) ++ part :: after) rest := ih
    exact hlater.cons x

/-- Lists may come one after another. -/
theorem flatten (parts : List (List α)) : Merges parts parts.flatten := by
  induction parts with
  | nil => exact .nil fun part hpart => nomatch hpart
  | cons part parts ih =>
    have hnone : Merges ([] ++ [] :: parts) parts.flatten := ih.cons_nil
    have hpart := hnone.prepend part
    rwa [List.append_nil] at hpart

/-- Nothing is lost and nothing is added. -/
theorem perm {parts : List (List α)} {merged : List α} (h : Merges parts merged) :
    merged.Perm parts.flatten := by
  induction h with
  | nil h => rw [List.flatten_eq_nil_iff.mpr h]
  | @cons before after part rest x _ ih =>
    rw [List.flatten_append, List.flatten_cons] at ih ⊢
    exact (ih.cons x).trans List.perm_middle.symm

end Merges

/-! ## Exchanges -/

namespace Exchange

variable {t : Transport σ}

/-- What is seen of an attempt. -/
def signal (x : Exchange) : Signal := .sent x.request x.options

/-- What is seen of an exchange: each of its attempts, and nothing between them.  There is a first
one if the exchange is answered. -/
def Tries (x : Exchange) (answered : Bool) (signals : List Signal) : Prop :=
  ∃ n ≤ x.retries + 1, (answered = true → 0 < n) ∧ signals = List.replicate n x.signal

/-- What is seen where there may be an exchange. -/
def TriesIfAny (answered : Bool) (x : Option Exchange) (signals : List Signal) : Prop :=
  match x with
  | some x => x.Tries answered signals
  | none => signals = []

theorem TriesIfAny.of_answered {x : Option Exchange} {signals : List Signal}
    (h : TriesIfAny true x signals) (answered : Bool) : TriesIfAny answered x signals := by
  cases x with
  | none => exact h
  | some x =>
    obtain ⟨n, hn, hpos, rfl⟩ := h
    exact ⟨n, hn, fun _ => hpos rfl, rfl⟩

theorem gives_attempt (x : Exchange) (w : World σ) : w.Gives (x.attempt t w).2 [x.signal] := by
  unfold attempt
  dsimp only
  split <;> exact w.gives_send t x.request x.options

/-- **What is seen of a course** is each of its attempts: notes and pauses give no signal. -/
theorem Course.gives {x : Exchange} {failed : Nat} {delay : Duration} {w : World σ}
    {trace : List Attempt} {r : Ran σ Reply} (h : Course t x failed delay w trace r) :
    w.Gives r.2 (List.replicate trace.length x.signal) := by
  have hpaused (e : TransportError) (failed : Nat) (delay : Duration) (w : World σ) :
      w.Gives (x.paused e failed delay (x.attempt t w).2) [x.signal] :=
    (x.gives_attempt w).trans ((x.attempt t w).2.gives_note (x.retryNote e failed))
  induction h with
  | @ended failed delay w result h => exact x.gives_attempt w
  | @broken failed delay w e h hdelay => exact hpaused e (failed + 1) delay w
  | @again failed delay longer w e rest r h hdelay course ih =>
    exact (hpaused e (failed + 1) delay w).trans ih

theorem exists_tries_run (x : Exchange) (answered : Bool) (w : World σ) :
    ∃ shown, x.Tries answered shown ∧ w.Gives (x.run t w).2 shown := by
  obtain ⟨trace, hcourse⟩ := exists_course t x 0 x.policy.initialDelay w
  exact ⟨_, ⟨trace.length, hcourse.length_le, fun _ => List.length_pos_of_ne_nil hcourse.ne_nil,
    rfl⟩, hcourse.gives⟩

namespace State

/-- How often a request may still be sent. -/
def ahead (s : State) : Nat :=
  match s.phase with
  | .idle | .pausing _ => s.exchange.retries - s.failed + 1
  | .sending .. => s.exchange.retries - s.failed
  | .ended _ => 0

/-- What may still be seen of an exchange that is under way. -/
def Tries (s : State) (answered : Bool) (signals : List Signal) : Prop :=
  ∃ n ≤ s.ahead, (answered = true → s.phase = .idle → 0 < n) ∧
    signals = List.replicate n s.exchange.signal

/-- What may still be seen where an exchange may be under way. -/
def TriesIfAny (answered : Bool) (s : Option State) (signals : List Signal) : Prop :=
  match s with
  | some s => s.Tries answered signals
  | none => signals = []

theorem triesIfAny_idle_iff {answered : Bool} {x : Option Exchange} {signals : List Signal} :
    TriesIfAny answered (x.map idle) signals ↔ Exchange.TriesIfAny answered x signals := by
  cases x with
  | none => rfl
  | some x =>
    have hahead : (idle x).ahead = x.retries + 1 := by rw [ahead, idle, Nat.sub_zero]
    exact exists_congr fun n => and_congr (by rw [hahead])
      (and_congr_left' (imp_congr_right fun _ => ⟨fun h => h rfl, fun h _ => h⟩))

/-- An exchange may be left at any time, and an answered one when it has been begun. -/
theorem tries_nil {s : State} {answered : Bool} (h : answered = true → s.phase ≠ .idle) :
    s.Tries answered [] :=
  ⟨0, Nat.zero_le _, fun hanswered hidle => absurd hidle (h hanswered), rfl⟩

variable {answered : Bool} {later : List Signal}

/-- The next attempt, and what may be seen after it. -/
theorem tries_send {s : State} {w : World σ} (h : (s.send t w).1.Tries answered later) :
    w.Gives (s.send t w).2 [s.exchange.signal] ∧ ∃ n ≤ s.exchange.retries - s.failed,
      [s.exchange.signal] ++ later = List.replicate (n + 1) s.exchange.signal := by
  obtain ⟨n, hn, -, rfl⟩ := h
  exact ⟨w.gives_send t s.exchange.request s.exchange.options, n, hn, rfl⟩

/-- A reply is no signal, and after it one attempt fewer is left. -/
theorem tries_settle {s : State} {reply : Reply} {w : World σ}
    (h : (s.settle reply w).1.Tries answered later) :
    w.Gives (s.settle reply w).2 [] ∧ ∃ n ≤ s.exchange.retries - s.failed,
      later = List.replicate n s.exchange.signal := by
  unfold settle at h ⊢
  split at h
  · obtain ⟨n, hn, -, rfl⟩ := h
    exact ⟨.refl w, n, Nat.le_trans hn (Nat.zero_le _), rfl⟩
  · rename_i e hagain
    have hfailed := lt_retries_of_sequel hagain
    obtain ⟨n, hn, -, rfl⟩ := h
    have hn : n ≤ s.exchange.retries - (s.failed + 1) + 1 := hn
    exact ⟨w.gives_note (s.exchange.retryNote e (s.failed + 1)), n, by omega, rfl⟩

/-- After a pause the request is sent once more, unless the exchange breaks off. -/
theorem tries_resume {s : State} {w : World σ} (h : (s.resume t w).1.Tries answered later) :
    ∃ shown, w.Gives (s.resume t w).2 shown ∧ ∃ n ≤ s.exchange.retries - s.failed + 1,
      shown ++ later = List.replicate n s.exchange.signal := by
  unfold resume at h ⊢
  cases hdelay : s.exchange.policy.next? s.delay with
  | none =>
    rw [hdelay] at h
    obtain ⟨n, hn, -, rfl⟩ := h
    exact ⟨[], .refl w, n, Nat.le_trans hn (Nat.zero_le _), rfl⟩
  | some delay =>
    rw [hdelay] at h
    obtain ⟨hgives, n, hn, hshown⟩ := tries_send h
    exact ⟨_, hgives, n + 1, Nat.succ_le_succ hn, hshown⟩

/-- **One step of an exchange** shows what it may still show. -/
theorem tries_of_step {s : State} {w : World σ} {r : State × World σ} (h : s.step t w = some r)
    (hlater : r.1.Tries answered later) :
    ∃ shown, w.Gives r.2 shown ∧ s.Tries answered (shown ++ later) := by
  unfold step at h
  split at h
  · rename_i hp
    cases h
    obtain ⟨hgives, n, hn, hshown⟩ := tries_send hlater
    refine ⟨_, hgives, n + 1, ?_, fun _ _ => Nat.succ_pos n, hshown⟩
    rw [ahead, hp]
    exact Nat.succ_le_succ hn
  · rename_i arrival deadline reply hp
    have hsettled {reply' : Reply} (hr : r = s.settle reply' w) :
        ∃ shown, w.Gives r.2 shown ∧ s.Tries answered (shown ++ later) := by
      subst hr
      obtain ⟨hgives, n, hn, hshown⟩ := tries_settle hlater
      refine ⟨[], hgives, n, ?_, (fun _ hidle => nomatch hp.symm.trans hidle), hshown⟩
      rw [ahead, hp]
      exact hn
    split at h
    · cases h
      exact hsettled rfl
    · split at h
      · cases h
        exact hsettled rfl
      · cases h
  · rename_i wake hp
    split at h
    · obtain rfl := Option.some.inj h
      obtain ⟨shown, hgives, n, hn, hshown⟩ := tries_resume hlater
      refine ⟨shown, hgives, n, ?_, (fun _ hidle => nomatch hp.symm.trans hidle), hshown⟩
      rw [ahead, hp]
      exact hn
    · cases h
  · cases h

theorem tries_advance (s : State) (w : World σ) (h : (s.advance t w).1.Tries answered later) :
    ∃ shown, w.Gives (s.advance t w).2 shown ∧ s.Tries answered (shown ++ later) := by
  fun_induction advance t s w generalizing later with
  | case1 s w hnone => exact ⟨[], .refl w, h⟩
  | case2 s w r hr ih =>
    obtain ⟨rest, hrest, htries⟩ := ih h
    obtain ⟨first, hfirst, htries⟩ := tries_of_step hr htries
    refine ⟨first ++ rest, hfirst.trans hrest, ?_⟩
    rwa [List.append_assoc]

/-- Exchanges go on in order, and whatever is seen of them afterwards may be merged. -/
theorem tries_advanceAll (states : List (Option State)) (w : World σ) {parts : List (List Signal)}
    (h : List.Forall₂ (TriesIfAny answered) (advanceAll t states w).1 parts) :
    ∃ shown begun, w.Gives (advanceAll t states w).2 shown ∧
      List.Forall₂ (TriesIfAny answered) states begun ∧
      ∀ before rest, Merges (before ++ parts) rest → Merges (before ++ begun) (shown ++ rest) := by
  induction states generalizing w parts with
  | nil =>
    cases h
    exact ⟨[], [], .refl w, .nil, fun before rest hrest => hrest⟩
  | cons s states ih =>
    cases s with
    | none =>
      cases h with
      | @cons _ part _ parts hpart h =>
        obtain ⟨shown, begun, hgives, htries, hmerges⟩ := ih w h
        refine ⟨shown, part :: begun, hgives, .cons hpart htries, fun before rest hrest => ?_⟩
        rw [List.append_cons] at hrest ⊢
        exact hmerges _ rest hrest
    | some s =>
      rw [advanceAll_some] at h ⊢
      by_cases hbreaks : (s.advance t w).1.break?.isSome
      · rw [if_pos hbreaks] at h ⊢
        cases h with
        | @cons _ part _ parts hpart h =>
          obtain ⟨first, hfirst, hs⟩ := tries_advance s w hpart
          exact ⟨first, (first ++ part) :: parts, hfirst, .cons hs h,
            fun before rest hrest => hrest.prepend first⟩
      · rw [if_neg hbreaks] at h ⊢
        cases h with
        | @cons _ part _ parts hpart h =>
          obtain ⟨first, hfirst, hs⟩ := tries_advance s w hpart
          obtain ⟨later, begun, hlater, htries, hmerges⟩ := ih _ h
          refine ⟨first ++ later, (first ++ part) :: begun, hfirst.trans hlater, .cons hs htries,
            fun before rest hrest => ?_⟩
          rw [List.append_cons] at hrest
          have hbegun := hmerges _ rest hrest
          rw [← List.append_cons] at hbegun
          rw [List.append_assoc]
          exact hbegun.prepend first

/-- Where exchanges side by side have come to something, nothing more is seen of them. -/
theorem tries_of_results? {states : List (Option State)}
    {result : Except Break (List (Option Reply))} (h : results? states = some result) :
    ∃ parts, List.Forall₂ (TriesIfAny result.isOk) states parts ∧ Merges parts [] := by
  have hover : ∀ s, some s ∈ states → s.Tries result.isOk [] := by
    intro s hs
    refine tries_nil fun hok => ?_
    cases result with
    | error b => cases hok
    | ok replies =>
      obtain ⟨reply, -, hended⟩ := exists_left_of_forall₂ (ended_of_results? h).flip hs
      cases hended with
      | some hp => rw [hp]; exact fun hidle => nomatch hidle
  refine ⟨states.map fun _ => [], List.forall₂_map_right_iff.mpr (List.forall₂_same.mpr ?_), ?_⟩
  · intro s hs
    cases s with
    | none => rfl
    | some s => exact hover s hs
  · refine .nil fun part hpart => ?_
    obtain ⟨s, -, rfl⟩ := List.mem_map.mp hpart
    rfl

/-- **Exchanges side by side**, carried out until they come to something. -/
theorem tries_finishAll (states : List (Option State)) (w : World σ) :
    ∃ shown parts, w.Gives (finishAll t states w).2 shown ∧
      List.Forall₂ (TriesIfAny (finishAll t states w).1.isOk) states parts ∧
      Merges parts shown := by
  fun_induction finishAll t states w with
  | case1 states w result h =>
    obtain ⟨parts, hparts, hmerges⟩ := tries_of_results? h
    exact ⟨[], parts, .refl w, hparts, hmerges⟩
  | case2 states w h r ih =>
    obtain ⟨later, parts, hlater, hparts, hmerges⟩ := ih
    obtain ⟨first, begun, hfirst, hbegun, hmerge⟩ := tries_advanceAll states _ hparts
    exact ⟨first ++ later, begun, hfirst.trans hlater, hbegun, hmerge [] later hmerges⟩

end State

/-- **Exchanges side by side**, begun and carried out. -/
theorem tries_runAll (xs : List (Option Exchange)) (w : World σ) :
    ∃ shown parts, w.Gives (runAll t xs w).2 shown ∧
      List.Forall₂ (TriesIfAny (runAll t xs w).1.isOk) xs parts ∧ Merges parts shown := by
  obtain ⟨later, parts, hlater, hparts, hmerges⟩ :=
    State.tries_finishAll (t := t) (State.advanceAll t (xs.map fun x => x.map State.idle) w).1
      (State.advanceAll t (xs.map fun x => x.map State.idle) w).2
  obtain ⟨first, begun, hfirst, hbegun, hmerge⟩ := State.tries_advanceAll _ w hparts
  refine ⟨first ++ later, begun, hfirst.trans hlater, ?_, hmerge [] later hmerges⟩
  exact (List.forall₂_map_left_iff.mp hbegun).imp fun _ _ h => State.triesIfAny_idle_iff.mp h

end Exchange

end HttpSuite
