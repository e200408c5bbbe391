import HttpSuite.Proofs.Run.Course

/-!
# What a program may do

A program alone does one thing, given a transport.  Among others, and against a transport that
answers as it likes, it may do many: `Program.Does` relates a program to all the acts, notes and
exchanges with their replies, that it may do and to what it then comes to.  A fact about all of
these holds of a program however it is run.

A program comes to no value if it is left before its end.  It is left while it waits: for an
exchange that breaks off, or for anything at all while another program that it is carried out with
breaks off.  There is no reply to an exchange that it is left in.
-/

namespace HttpSuite

variable {σ α β : Type}

/-! ## Acts -/

/-- What is seen of a program: a note, or an exchange with the reply to it, if there is one. -/
inductive Act where
  | note (n : Note)
  | exchange (x : Exchange) (reply : Option Reply)

namespace Act

def note? : Act → Option Note
  | note n => some n
  | exchange _ _ => none

def exchange? : Act → Option (Exchange × Option Reply)
  | note _ => none
  | exchange x reply => some (x, reply)

end Act

/-- Exchanges side by side with a reply to each, as acts in their order. -/
inductive Exchange.Answered : List (Option Exchange) → List (Option Reply) → List Act → Prop where
  | nil : Answered [] [] []
  | none {xs : List (Option Exchange)} {replies : List (Option Reply)} {acts : List Act}
      (rest : Answered xs replies acts) : Answered (none :: xs) (none :: replies) acts
  | some {x : Exchange} {reply : Reply} {xs : List (Option Exchange)}
      {replies : List (Option Reply)} {acts : List Act} (rest : Answered xs replies acts) :
      Answered (some x :: xs) (some reply :: replies) (.exchange x (some reply) :: acts)

namespace Exchange

/-- Exchanges side by side that are left before all of them have their replies. -/
def unanswered (xs : List (Option Exchange)) : List Act :=
  xs.filterMap (Option.map (Act.exchange · none))

theorem Answered.exists_exchange {xs : List (Option Exchange)} {replies : List (Option Reply)}
    {acts : List Act} (h : Answered xs replies acts) {x : Exchange} (hx : Option.some x ∈ xs) :
    ∃ reply, Act.exchange x reply ∈ acts := by
  induction h with
  | nil => exact nomatch hx
  | none _ ih =>
    rcases List.mem_cons.mp hx with hx | hx
    · cases hx
    · exact ih hx
  | @some y reply xs replies acts rest ih =>
    rcases List.mem_cons.mp hx with hx | hx
    · cases hx
      exact ⟨reply, List.mem_cons_self ..⟩
    · obtain ⟨reply, hreply⟩ := ih hx
      exact ⟨reply, List.mem_cons_of_mem _ hreply⟩

/-- The exchanges that are under way, each in its place. -/
def State.exchanges (states : List (Option State)) : List (Option Exchange) :=
  states.map (Option.map State.exchange)

namespace State

variable {t : Transport σ}

/-- A step stays with its exchange. -/
theorem exchange_of_step {s : State} {w : World σ} {r : State × World σ}
    (h : s.step t w = some r) : r.1.exchange = s.exchange := by
  have hsettle (reply : Reply) : (s.settle reply w).1.exchange = s.exchange := by
    unfold settle
    split <;> rfl
  have hresume : (s.resume t w).1.exchange = s.exchange := by
    unfold resume
    cases s.exchange.policy.next? s.delay <;> rfl
  unfold step at h
  split at h
  · cases h
    rfl
  · split at h
    · cases h
      exact hsettle _
    · split at h
      · cases h
        exact hsettle _
      · cases h
  · split at h
    · rw [← Option.some.inj h]
      exact hresume
    · cases h
  · cases h

theorem exchange_advance (s : State) (w : World σ) : (s.advance t w).1.exchange = s.exchange := by
  fun_induction advance t s w with
  | case1 => rfl
  | case2 s w r hr ih => rw [ih, exchange_of_step hr]

theorem exchanges_advanceAll (states : List (Option State)) (w : World σ) :
    exchanges (advanceAll t states w).1 = exchanges states := by
  induction states generalizing w with
  | nil => rfl
  | cons s states ih =>
    cases s with
    | none => exact congrArg (none :: ·) (ih w)
    | some s =>
      have hs := congrArg some (s.exchange_advance (t := t) w)
      rw [advanceAll_some]
      split
      · exact congrArg (· :: exchanges states) hs
      · exact congrArg₂ List.cons hs (ih _)

theorem exchanges_idle (xs : List (Option Exchange)) :
    exchanges (xs.map fun x => x.map idle) = xs := by
  rw [exchanges, List.map_map]
  refine (List.map_congr_left fun x _ => ?_).trans (List.map_id xs)
  cases x <;> rfl

/-- Where exchanges side by side come to replies, each has ended with its own. -/
theorem ended_of_results? {states : List (Option State)} {replies : List (Option Reply)}
    (h : results? states = some (.ok replies)) :
    List.Forall₂ (Option.Rel fun s reply => s.phase = .ended (.ok reply)) states replies := by
  unfold results? at h
  split at h
  · cases h
  · rename_i hbreak
    split at h
    · rename_i hwakes
      cases h
      refine List.forall₂_map_right_iff.mpr (List.forall₂_same.mpr fun s hs => ?_)
      cases s with
      | none => exact .none
      | some s =>
        have hb : s.break? = none := List.findSome?_eq_none_iff.mp hbreak _ hs
        have hw : s.wake? = none := List.filterMap_eq_nil_iff.mp (List.isEmpty_iff.mp hwakes) _ hs
        cases hp : s.phase with
        | ended result =>
          rw [Option.bind_some, reply?, result?, hp]
          cases result with
          | ok reply => exact .some hp
          | error b =>
            rw [break?, hp] at hb
            cases hb
        | _ =>
          rw [wake?, hp] at hw
          cases hw
    · cases h

/-- Exchanges that have ended are answered. -/
theorem exists_answered {states : List (Option State)} {replies : List (Option Reply)}
    (h : List.Forall₂ (Option.Rel fun s reply => s.phase = .ended (.ok reply)) states replies) :
    ∃ acts, Answered (exchanges states) replies acts := by
  induction h with
  | nil => exact ⟨[], .nil⟩
  | cons hs _ ih =>
    obtain ⟨acts, hacts⟩ := ih
    cases hs with
    | none => exact ⟨acts, .none hacts⟩
    | some hs => exact ⟨_, .some hacts⟩

theorem exists_answered_finishAll (states : List (Option State)) (w : World σ)
    {replies : List (Option Reply)} (h : (finishAll t states w).1 = .ok replies) :
    ∃ acts, Answered (exchanges states) replies acts := by
  fun_induction finishAll t states w with
  | case1 states w result hresult =>
    obtain rfl : result = .ok replies := h
    exact exists_answered (ended_of_results? hresult)
  | case2 states w hresult r ih =>
    obtain ⟨acts, hacts⟩ := ih h
    rw [exchanges_advanceAll] at hacts
    exact ⟨acts, hacts⟩

end State

/-- Exchanges side by side that come to replies are answered. -/
theorem exists_answered_runAll (xs : List (Option Exchange)) (w : World σ) (t : Transport σ)
    {replies : List (Option Reply)} (h : (runAll t xs w).1 = .ok replies) :
    ∃ acts, Answered xs replies acts := by
  obtain ⟨acts, hacts⟩ := State.exists_answered_finishAll _ _ h
  rw [State.exchanges_advanceAll, State.exchanges_idle] at hacts
  exact ⟨acts, hacts⟩

end Exchange

/-! ## What a program may do -/

namespace Program

/-- The program may do these acts, in this order, and come to this value, or to none. -/
inductive Does : Program α → List Act → Option α → Prop where
  | done (a : α) : Does (.done a) [] (some a)
  | note {n : Note} {next : Program α} {acts : List Act} {v : Option α} (h : Does next acts v) :
      Does (.note n next) (.note n :: acts) v
  | sleep {d : Duration} {next : Program α} {acts : List Act} {v : Option α}
      (h : Does next acts v) : Does (.sleep d next) acts v
  | exchange {x : Exchange} {next : Reply → Program α} {acts : List Act} {v : Option α}
      (reply : Reply) (h : Does (next reply) acts v) :
      Does (.exchange x next) (.exchange x (some reply) :: acts) v
  | exchanges {xs : List (Option Exchange)} {next : List (Option Reply) → Program α}
      {first acts : List Act} {v : Option α} {replies : List (Option Reply)}
      (answered : Exchange.Answered xs replies first) (h : Does (next replies) acts v) :
      Does (.exchanges xs next) (first ++ acts) v
  | asleep {d : Duration} {next : Program α} : Does (.sleep d next) [] none
  | unanswered {x : Exchange} {next : Reply → Program α} :
      Does (.exchange x next) [.exchange x none] none
  | unansweredAll {xs : List (Option Exchange)} {next : List (Option Reply) → Program α} :
      Does (.exchanges xs next) (Exchange.unanswered xs) none

/-- The program may have done these acts, be it none because it has not begun. -/
def MayHaveDone (p : Program α) (acts : List Act) (v : Option α) : Prop :=
  p.Does acts v ∨ acts = [] ∧ v = none

/-- A program that is made of two is left in the first of them, or goes on with the second. -/
theorem Does.of_bind {p : Program α} {f : α → Program β} {acts : List Act} {v : Option β}
    (h : (p >>= f).Does acts v) :
    (∃ first a rest, p.Does first (some a) ∧ (f a).Does rest v ∧ acts = first ++ rest) ∨
      p.Does acts none ∧ v = none := by
  change (p.bind f).Does acts v at h
  induction p generalizing acts with
  | done a => exact .inl ⟨[], a, acts, .done a, h, rfl⟩
  | note n next ih =>
    cases h with
    | note h =>
      rcases ih h with ⟨first, a, rest, hfirst, hrest, rfl⟩ | ⟨hleft, rfl⟩
      · exact .inl ⟨_, a, rest, .note hfirst, hrest, rfl⟩
      · exact .inr ⟨.note hleft, rfl⟩
  | sleep d next ih =>
    cases h with
    | sleep h =>
      rcases ih h with ⟨first, a, rest, hfirst, hrest, rfl⟩ | ⟨hleft, rfl⟩
      · exact .inl ⟨_, a, rest, .sleep hfirst, hrest, rfl⟩
      · exact .inr ⟨.sleep hleft, rfl⟩
    | asleep => exact .inr ⟨.asleep, rfl⟩
  | exchange x next ih =>
    cases h with
    | exchange reply h =>
      rcases ih reply h with ⟨first, a, rest, hfirst, hrest, rfl⟩ | ⟨hleft, rfl⟩
      · exact .inl ⟨_, a, rest, .exchange reply hfirst, hrest, rfl⟩
      · exact .inr ⟨.exchange reply hleft, rfl⟩
    | unanswered => exact .inr ⟨.unanswered, rfl⟩
  | exchanges xs next ih =>
    cases h with
    | exchanges answered h =>
      rcases ih _ h with ⟨first, a, rest, hfirst, hrest, rfl⟩ | ⟨hleft, rfl⟩
      · exact .inl ⟨_, a, rest, .exchanges answered hfirst, hrest, (List.append_assoc ..).symm⟩
      · exact .inr ⟨.exchanges answered hleft, rfl⟩
    | unansweredAll => exact .inr ⟨.unansweredAll, rfl⟩

theorem Does.of_pure {a : α} {acts : List Act} {v : Option α}
    (h : (pure a : Program α).Does acts v) : acts = [] ∧ v = some a := by
  change (Program.done a).Does acts v at h
  cases h
  exact ⟨rfl, rfl⟩

/-- Notes do not wait, so no program is left in them. -/
theorem Does.of_notes {ns : List Note} {acts : List Act} {v : Option Unit}
    (h : (notes ns).Does acts v) : acts = ns.map .note ∧ v = some () := by
  induction ns generalizing acts with
  | nil =>
    cases h
    exact ⟨rfl, rfl⟩
  | cons n rest ih =>
    cases h with
    | note h =>
      obtain ⟨rfl, hv⟩ := ih h
      exact ⟨rfl, hv⟩

/-- What follows notes is done after all of them. -/
theorem Does.of_notes_bind {ns : List Note} {f : Unit → Program β} {acts : List Act} {v : Option β}
    (h : (notes ns >>= f).Does acts v) :
    ∃ rest, (f ()).Does rest v ∧ acts = ns.map .note ++ rest := by
  rcases h.of_bind with ⟨first, _, rest, hfirst, hrest, rfl⟩ | ⟨hleft, rfl⟩
  · exact ⟨rest, hrest, by rw [hfirst.of_notes.1]⟩
  · cases hleft.of_notes.2

theorem Does.of_pause {d : Duration} {acts : List Act} {v : Option Unit}
    (h : (pause d).Does acts v) : acts = [] := by
  cases h with
  | sleep h =>
    cases h
    rfl
  | asleep => rfl

theorem Does.of_perform {x : Exchange} {acts : List Act} {v : Option Reply}
    (h : (perform x).Does acts v) : acts = [.exchange x v] := by
  cases h with
  | exchange reply h =>
    cases h
    rfl
  | unanswered => rfl

theorem Does.of_performAll {xs : List (Option Exchange)} {acts : List Act}
    {v : Option (List (Option Reply))} (h : (performAll xs).Does acts v) :
    (∃ replies, v = some replies ∧ Exchange.Answered xs replies acts) ∨
      v = none ∧ acts = Exchange.unanswered xs := by
  cases h with
  | exchanges answered h =>
    cases h
    rw [List.append_nil]
    exact .inl ⟨_, rfl, answered⟩
  | unansweredAll => exact .inr ⟨rfl, rfl⟩

end Program

end HttpSuite
