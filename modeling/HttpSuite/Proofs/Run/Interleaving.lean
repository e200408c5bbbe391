import HttpSuite.Proofs.Run.Answering
import Mathlib.Logic.Relation

/-!
# Programs side by side

Programs that run side by side share the clock and the transport.  `Program.Thread.Step` is one
thing that one of them does, `Program.Turn` is one thing that happens among them: some thread takes
a step, or time moves on.  An interleaving is any sequence of turns.  Turns after a thread has
broken off are allowed, although none is carried out; what holds of every interleaving holds of
those that end there.

## What is asked of time

Time may move on however it likes, with one restriction: an attempt that has run out of time is
looked at before its reply comes in after all.  A reply that is looked at counts as one in time, so
without the restriction the reply to an attempt would depend on how busy the other programs are.

## Where a thread leads

Against a transport that answers from what is sent, a thread `Leads` to a value that no turn
changes, or to none where its program breaks off: a step of the thread itself goes on towards it,
and the others change neither the thread nor the answers.  So `Program.AllLead.interleaving` holds
of every interleaving, and what `Program.together` does is one of them
(`Program.interleaving_finishAll`).
-/

namespace HttpSuite

variable {σ α β γ : Type}

/-- One entry of a list may change where all that is asked of it still holds. -/
theorem forall₂_replace {R : β → γ → Prop} {xs : List β} {before after : List γ} {y z : γ}
    (h : List.Forall₂ R xs (before ++ y :: after)) (hyz : ∀ x, R x y → R x z) :
    List.Forall₂ R xs (before ++ z :: after) := by
  induction before generalizing xs with
  | nil =>
    cases h with
    | cons hx hrest => exact .cons (hyz _ hx) hrest
  | cons b before ih =>
    cases h with
    | cons hx hrest => exact .cons hx (ih hrest)

namespace Program

open Exchange (State)

/-! ## Interleavings -/

namespace Thread

/-- One thing that a thread does.  A program that has been woken is asleep until a time that has
come. -/
inductive Step (t : Transport σ) : Thread α × World σ → Thread α × World σ → Prop where
  | finish {wake : Nat} {a : α} {w : World σ} (h : wake ≤ w.now) :
      Step t (asleep wake (.done a), w) (finished a, w)
  | note {wake : Nat} {n : Note} {next : Program α} {w : World σ} (h : wake ≤ w.now) :
      Step t (asleep wake (.note n next), w) (asleep wake next, w.note n)
  | sleep {wake : Nat} {d : Duration} {next : Program α} {w : World σ} (h : wake ≤ w.now) :
      Step t (asleep wake (.sleep d next), w) (asleep (w.now + d.milliseconds) next, w)
  | exchange {wake : Nat} {x : Exchange} {next : Reply → Program α} {w : World σ}
      (h : wake ≤ w.now) :
      Step t (asleep wake (.exchange x next), w) (awaiting (State.idle x) next, w)
  | go {s : State} {next : Reply → Program α} {w : World σ} {r : State × World σ}
      (h : s.step t w = some r) : Step t (awaiting s next, w) (awaiting r.1 next, r.2)
  | reply {s : State} {next : Reply → Program α} {w : World σ} {reply : Reply}
      (h : s.result? = some (.ok reply)) :
      Step t (awaiting s next, w) (asleep w.now (next reply), w)
  | breaks {s : State} {next : Reply → Program α} {w : World σ} {b : Break}
      (h : s.result? = some (.error b)) : Step t (awaiting s next, w) (broken b, w)
  | exchanges {wake : Nat} {xs : List (Option Exchange)} {next : List (Option Reply) → Program α}
      {w : World σ} (h : wake ≤ w.now) :
      Step t (asleep wake (.exchanges xs next), w)
        (awaitingAll (xs.map fun x => x.map State.idle) next, w)
  | goOne {before after : List (Option State)} {s : State} {next : List (Option Reply) → Program α}
      {w : World σ} {r : State × World σ} (h : s.step t w = some r) :
      Step t (awaitingAll (before ++ some s :: after) next, w)
        (awaitingAll (before ++ some r.1 :: after) next, r.2)
  | replies {states : List (Option State)} {next : List (Option Reply) → Program α} {w : World σ}
      {replies : List (Option Reply)} (h : State.results? states = some (.ok replies)) :
      Step t (awaitingAll states next, w) (asleep w.now (next replies), w)
  | breaksAll {states : List (Option State)} {next : List (Option Reply) → Program α}
      {w : World σ} {b : Break} (h : State.results? states = some (.error b)) :
      Step t (awaitingAll states next, w) (broken b, w)

/-- No attempt of the thread that has run out of time gets its reply before it is looked at. -/
def Timely (now : Nat) : Thread α → Prop
  | awaiting s _ => s.Timely now
  | awaitingAll states _ => ∀ s : State, some s ∈ states → s.Timely now
  | _ => True

variable {t : Transport σ}

theorem Step.now_eq {a b : Thread α × World σ} (h : Step t a b) : b.2.now = a.2.now := by
  cases h with
  | go h => exact State.now_of_step t h
  | goOne h => exact State.now_of_step t h
  | _ => rfl

end Thread

/-- One thing that happens among threads. -/
inductive Turn (t : Transport σ) :
    List (Thread α) × World σ → List (Thread α) × World σ → Prop where
  | act {before after : List (Thread α)} {s s' : Thread α} {w w' : World σ}
      (h : Thread.Step t (s, w) (s', w')) :
      Turn t (before ++ s :: after, w) (before ++ s' :: after, w')
  | tick {threads : List (Thread α)} {w : World σ} {time : Nat}
      (h : ∀ s ∈ threads, s.Timely (max w.now time)) :
      Turn t (threads, w) (threads, State.jump w time)

/-- What can happen among threads, one thing after another. -/
abbrev Interleaving (t : Transport σ) :
    List (Thread α) × World σ → List (Thread α) × World σ → Prop :=
  Relation.ReflTransGen (Turn t)

/-! ## Where a thread leads -/

section Answers

variable {t : Transport σ} {answer : Request → SendOptions → Delivery}

namespace Thread

variable (answer) in
/-- The thread is on its way to a value, or to none. -/
def Leads (now : Nat) (v : Option α) : Thread α → Prop
  | finished a => v = some a
  | broken _ => v = none
  | asleep _ next => next.value (Exchange.answered answer) = v
  | awaiting s next => ∃ x, State.Follows answer now x s ∧
      ((x.answered answer).bind fun reply => (next reply).value (Exchange.answered answer)) = v
  | awaitingAll states next => ∃ xs, State.AllFollow answer now xs states ∧
      ((xs.mapM (Option.mapM (Exchange.answered answer))).bind fun replies =>
        (next replies).value (Exchange.answered answer)) = v

theorem Leads.timely {now : Nat} {v : Option α} {s : Thread α} (h : s.Leads answer now v) :
    s.Timely now := by
  cases s with
  | awaiting s next =>
    obtain ⟨x, hx, -⟩ := h
    exact hx.timely
  | awaitingAll states next =>
    obtain ⟨xs, hxs, -⟩ := h
    exact fun s hmem => State.AllFollow.timely hxs hmem
  | _ => trivial

/-- Where a thread leads does not depend on the time. -/
theorem Leads.at {now later : Nat} {v : Option α} {s : Thread α} (h : s.Leads answer now v)
    (ht : s.Timely later) : s.Leads answer later v := by
  cases s with
  | awaiting s next =>
    obtain ⟨x, hx, hv⟩ := h
    exact ⟨x, { hx with timely := ht }, hv⟩
  | awaitingAll states next =>
    obtain ⟨xs, hxs, hv⟩ := h
    exact ⟨xs, State.AllFollow.at hxs ht, hv⟩
  | _ => exact h

/-- **What one step keeps**: a thread goes on towards its value. -/
theorem Leads.step (ht : t.Answers answer) {a b : Thread α × World σ} {v : Option α}
    (h : Step t a b) (ha : a.1.Leads answer a.2.now v) : b.1.Leads answer b.2.now v := by
  cases h with
  | finish h => exact ha.symm
  | note h => exact ha
  | sleep h => exact ha
  | @exchange wake x next w h => exact ⟨x, State.follows_idle w.now x, ha⟩
  | go h =>
    obtain ⟨x, hx, hv⟩ := ha
    refine ⟨x, ?_, hv⟩
    rw [State.now_of_step t h]
    exact State.follows_step ht hx h
  | reply h =>
    obtain ⟨x, hx, hv⟩ := ha
    rw [Exchange.answered, hx.result_eq h] at hv
    exact hv
  | breaks h =>
    obtain ⟨x, hx, hv⟩ := ha
    rw [Exchange.answered, hx.result_eq h] at hv
    exact hv.symm
  | @exchanges wake xs next w h => exact ⟨xs, State.allFollow_idle w.now xs, ha⟩
  | goOne h =>
    obtain ⟨xs, hxs, hv⟩ := ha
    refine ⟨xs, ?_, hv⟩
    rw [State.now_of_step t h]
    refine forall₂_replace hxs fun x hx => ?_
    cases hx with
    | some hx => exact .some (State.follows_step ht hx h)
  | replies h =>
    obtain ⟨xs, hxs, hv⟩ := ha
    rw [← hxs.results_eq h] at hv
    exact hv
  | breaksAll h =>
    obtain ⟨xs, hxs, hv⟩ := ha
    rw [← hxs.results_eq h] at hv
    exact hv.symm

end Thread

variable (answer) in
/-- Every thread is on its way to the value of its program. -/
def AllLead (now : Nat) (programs : List (Program α)) (threads : List (Thread α)) : Prop :=
  List.Forall₂ (fun p s => s.Leads answer now (p.value (Exchange.answered answer))) programs threads

theorem allLead_asleep (programs : List (Program α)) (now : Nat) :
    AllLead answer now programs (programs.map (Thread.asleep now)) :=
  List.forall₂_map_right_iff.mpr (List.forall₂_same.mpr fun _ _ => rfl)

namespace AllLead

variable {programs : List (Program α)} {threads : List (Thread α)} {now later : Nat}

theorem timely (h : AllLead answer now programs threads) : ∀ s ∈ threads, s.Timely now := by
  induction h with
  | nil => exact fun s hs => nomatch hs
  | cons hs _ ih => exact List.forall_mem_cons.mpr ⟨hs.timely, ih⟩

theorem at_later (h : AllLead answer now programs threads) (ht : ∀ s ∈ threads, s.Timely later) :
    AllLead answer later programs threads := by
  induction h with
  | nil => exact .nil
  | cons hs _ ih =>
    obtain ⟨hfirst, hrest⟩ := List.forall_mem_cons.mp ht
    exact .cons (hs.at hfirst) (ih hrest)

variable {a b : List (Thread α) × World σ}

/-- **What one turn keeps**: every thread still leads to its value. -/
theorem turn (ht : t.Answers answer) (h : Turn t a b)
    (ha : AllLead answer a.2.now programs a.1) : AllLead answer b.2.now programs b.1 := by
  cases h with
  | act h =>
    -- no time passes, so the threads that do nothing lead where they led
    rw [h.now_eq]
    refine forall₂_replace ha fun p hp => ?_
    have hstep := Thread.Leads.step ht h hp
    rwa [h.now_eq] at hstep
  | tick h => exact ha.at_later h

/-- **What a whole interleaving keeps.** -/
theorem interleaving (ht : t.Answers answer) (h : Interleaving t a b)
    (ha : AllLead answer a.2.now programs a.1) : AllLead answer b.2.now programs b.1 := by
  induction h with
  | refl => exact ha
  | tail _ hturn ih => exact turn ht hturn ih

end AllLead

/-! ## The interleaving that is carried out -/

namespace Thread

/-- What a thread does, one thing after another. -/
abbrev Steps (t : Transport σ) : Thread α × World σ → Thread α × World σ → Prop :=
  Relation.ReflTransGen (Step t)

theorem Steps.now_eq {a b : Thread α × World σ} (h : Steps t a b) : b.2.now = a.2.now := by
  induction h with
  | refl => rfl
  | tail _ hstep ih => rw [hstep.now_eq, ih]

theorem steps_awaiting (s : State) (next : Reply → Program α) (w : World σ) :
    Steps t (awaiting s next, w) (awaiting (s.advance t w).1 next, (s.advance t w).2) := by
  fun_induction State.advance t s w with
  | case1 s w h => exact .refl
  | case2 s w r hr ih => exact .head (.go hr) ih

theorem steps_one (before after : List (Option State)) (s : State)
    (next : List (Option Reply) → Program α) (w : World σ) :
    Steps t (awaitingAll (before ++ some s :: after) next, w)
      (awaitingAll (before ++ some (s.advance t w).1 :: after) next, (s.advance t w).2) := by
  fun_induction State.advance t s w with
  | case1 s w h => exact .refl
  | case2 s w r hr ih => exact .head (.goOne hr) ih

theorem steps_awaitingAll (before states : List (Option State))
    (next : List (Option Reply) → Program α) (w : World σ) :
    Steps t (awaitingAll (before ++ states) next, w)
      (awaitingAll (before ++ (State.advanceAll t states w).1) next,
        (State.advanceAll t states w).2) := by
  induction states generalizing before w with
  | nil => exact .refl
  | cons s states ih =>
    cases s with
    | none =>
      have hrest := ih (before ++ [none]) w
      rwa [List.append_assoc, List.append_assoc] at hrest
    | some s =>
      have hone := steps_one (t := t) before states s next w
      rw [State.advanceAll_some]
      split
      · exact hone
      · have hrest := ih (before ++ [some (s.advance t w).1]) (s.advance t w).2
        rw [List.append_assoc, List.append_assoc] at hrest
        exact hone.trans hrest

/-- What a program does when it is woken. -/
theorem steps_start (p : Program α) {wake : Nat} {w : World σ} (h : wake ≤ w.now) :
    Steps t (asleep wake p, w) (p.start t w) := by
  induction p generalizing wake w with
  | done a => exact .single (.finish h)
  | note n next ih => exact .head (.note h) (ih h)
  | sleep d next ih =>
    rw [start]
    split
    · -- a pause of no length is over in the same instant
      rename_i hd
      exact .head (.sleep h) (ih (by omega))
    · exact .single (.sleep h)
  | exchange x next ih =>
    have hadvance := (steps_awaiting (t := t) (State.idle x) next w).head (.exchange h)
    simp only [start]
    split
    · rename_i reply hr
      exact (hadvance.tail (.reply hr)).trans (ih reply (Nat.le_refl _))
    · rename_i b hb
      exact hadvance.tail (.breaks hb)
    · exact hadvance
  | exchanges xs next ih =>
    have hadvance :=
      (steps_awaitingAll (t := t) [] (xs.map fun x => x.map State.idle) next w).head (.exchanges h)
    simp only [start]
    split
    · rename_i replies hr
      exact (hadvance.tail (.replies hr)).trans (ih replies (Nat.le_refl _))
    · rename_i b hb
      exact hadvance.tail (.breaksAll hb)
    · exact hadvance

/-- What a thread does when it is looked at. -/
theorem steps_advance (s : Thread α) (w : World σ) : Steps t (s, w) (s.advance t w) := by
  cases s with
  | finished a => exact .refl
  | broken b => exact .refl
  | asleep wake next =>
    rw [advance]
    split
    · rename_i h
      exact steps_start next h
    · exact .refl
  | awaiting s next =>
    have hadvance := steps_awaiting (t := t) s next w
    simp only [advance]
    split
    · rename_i reply hr
      exact (hadvance.tail (.reply hr)).trans (steps_start _ (Nat.le_refl _))
    · rename_i b hb
      exact hadvance.tail (.breaks hb)
    · exact hadvance
  | awaitingAll states next =>
    have hadvance := steps_awaitingAll (t := t) [] states next w
    simp only [advance]
    split
    · rename_i replies hr
      exact (hadvance.tail (.replies hr)).trans (steps_start _ (Nat.le_refl _))
    · rename_i b hb
      exact hadvance.tail (.breaksAll hb)
    · exact hadvance

theorem advanceAll_cons (s : Thread α) (rest : List (Thread α)) (w : World σ) :
    advanceAll t (s :: rest) w =
      if (s.advance t w).1.break?.isSome then ((s.advance t w).1 :: rest, (s.advance t w).2)
      else ((s.advance t w).1 :: (advanceAll t rest (s.advance t w).2).1,
        (advanceAll t rest (s.advance t w).2).2) := rfl

end Thread

theorem interleaving_of_steps {s s' : Thread α} {w w' : World σ}
    (h : Thread.Steps t (s, w) (s', w')) (before after : List (Thread α)) :
    Interleaving t (before ++ s :: after, w) (before ++ s' :: after, w') :=
  h.lift (fun x : Thread α × World σ => (before ++ x.1 :: after, x.2)) fun _ _ hstep => .act hstep

theorem interleaving_advanceAll (before threads : List (Thread α)) (w : World σ) :
    Interleaving t (before ++ threads, w)
      (before ++ (Thread.advanceAll t threads w).1, (Thread.advanceAll t threads w).2) := by
  induction threads generalizing before w with
  | nil => exact .refl
  | cons s threads ih =>
    have hone := interleaving_of_steps (Thread.steps_advance (t := t) s w) before threads
    rw [Thread.advanceAll_cons]
    split
    · exact hone
    · have hrest := ih (before ++ [(s.advance t w).1]) (s.advance t w).2
      rw [List.append_assoc, List.append_assoc] at hrest
      exact hone.trans hrest

/-- A thread may next be looked at when something happens in it. -/
theorem Thread.Timely.jump {s : Thread α} {now k : Nat} (h : s.Timely now)
    (hk : ∀ m, s.wake? = some m → k ≤ m) : s.Timely (max now k) := by
  cases s with
  | awaiting s next => exact State.Timely.max h hk
  | awaitingAll states next =>
    intro s hmem
    refine (h s hmem).max fun m hm => ?_
    have hwakes : m ∈ State.wakes states := List.mem_filterMap.mpr ⟨some s, hmem, hm⟩
    obtain ⟨first, hfirst⟩ :=
      Option.ne_none_iff_exists'.mp (mt List.min?_eq_none_iff.mp (List.ne_nil_of_mem hwakes))
    exact Nat.le_trans (hk first hfirst) (State.min?_wakes_le hfirst hmem hm)
  | _ => trivial

/-- Threads that are on their way may next be looked at when something happens in one of them. -/
theorem AllLead.timely_jump {programs : List (Program α)} {threads : List (Thread α)} {now k : Nat}
    (h : AllLead answer now programs threads)
    (hk : (threads.filterMap Thread.wake?).min? = some k) :
    ∀ s ∈ threads, s.Timely (max now k) := fun s hs =>
  (h.timely s hs).jump fun m hm =>
    (List.min?_eq_some_iff.mp hk).2 m (List.mem_filterMap.mpr ⟨s, hs, hm⟩)

/-- **What is carried out is an interleaving.** -/
theorem interleaving_finishAll (ht : t.Answers answer) (turns : Nat) {programs : List (Program α)}
    (threads : List (Thread α)) (w : World σ) (h : AllLead answer w.now programs threads) :
    Interleaving t (threads, w) (Thread.finishAll t turns threads w) := by
  induction turns generalizing threads w with
  | zero => exact .refl
  | succ turns ih =>
    rw [Thread.finishAll]
    split
    · rename_i k hbreak hk
      have hturn : Interleaving t (threads, w)
          (Thread.advanceAll t threads (State.jump w k)) :=
        (interleaving_advanceAll [] threads (State.jump w k)).head (.tick (h.timely_jump hk))
      exact hturn.trans (ih _ _ (AllLead.interleaving ht hturn h))
    · exact .refl

end Answers

end Program

end HttpSuite
