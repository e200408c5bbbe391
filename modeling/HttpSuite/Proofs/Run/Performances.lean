import HttpSuite.Proofs.Run.Concurrency
import HttpSuite.Proofs.Run.Signals

/-!
# What is seen of a program

`Program.Shows` relates a program to all the signals that it may give, beside its acts and its
value.  A fact about all of these holds of a program however it is run, as for `Program.Does`, and
it may be one about the order in which requests are sent and the user is asked.

## Several programs

Side by side, what threads may still show is a merge of what each of them may.  Where one of them
goes on, it adds its signals in front of its own ones, which makes a merge of what is left after it
has gone on into one of what was left before (`Program.exists_mayShow_advanceAll`).  At the end
nothing more is shown, so the signals of the whole run are a merge of those of its programs.

The main statement is `RunOptions.exists_performances`: in every run of sets, in order or side by
side and against any transport, each set shows what it may show, and what is seen of the run are
these signals merged, or those of one set after the other where sets run in order.  This is so of a
run that breaks off, too: it has no report, and some of its sets have no outcome.  Where only the
requests matter and not their order, `RunOptions.exists_runs` says the same of acts.
-/

namespace HttpSuite

variable {σ α β : Type}

/-! ## Sendings -/

/-- Whatever has been sent from one world to another one is among some sendings. -/
def World.Gains (w w' : World σ) (P : Sending → Prop) : Prop :=
  ∀ e ∈ w'.sends, e ∈ w.sends ∨ P e

theorem World.Gains.mono {w w' : World σ} {P Q : Sending → Prop} (h : w.Gains w' P)
    (hPQ : ∀ e, P e → Q e) : w.Gains w' Q := fun e he => (h e he).imp_right (hPQ e)

/-- What is sent is seen. -/
theorem World.Gives.gains {w w' : World σ} {signals : List Signal} (h : w.Gives w' signals)
    {P : Sending → Prop} (hP : ∀ e : Sending, .sent e.1 e.2.1 ∈ signals → P e) :
    w.Gains w' P := by
  obtain ⟨events, hevents, rfl⟩ := h
  intro e he
  rw [sends, hevents, List.filterMap_append] at he
  rcases List.mem_append.mp he with he | he
  · exact .inl he
  · obtain ⟨event, hevent, hsent⟩ := List.mem_filterMap.mp he
    refine .inr (hP e (List.mem_filterMap.mpr ⟨event, hevent, ?_⟩))
    cases event with
    | sent request options time =>
      cases hsent
      rfl
    | noted n time => cases hsent

/-- A sending for an exchange. -/
def Exchange.MaySend (x : Exchange) (e : Sending) : Prop := e.1 = x.request ∧ e.2.1 = x.options

theorem Exchange.Tries.maySend {x : Exchange} {answered : Bool} {signals : List Signal}
    (h : x.Tries answered signals) {e : Sending} (he : .sent e.1 e.2.1 ∈ signals) :
    x.MaySend e := by
  obtain ⟨n, -, -, rfl⟩ := h
  have hsignal : Signal.sent e.1 e.2.1 = x.signal := List.eq_of_mem_replicate he
  exact ⟨(Signal.sent.inj hsignal).1, (Signal.sent.inj hsignal).2⟩

/-- A sending for one of the exchanges among some acts. -/
def ActsMaySend (acts : List Act) (e : Sending) : Prop :=
  ∃ x reply, Act.exchange x reply ∈ acts ∧ x.MaySend e

theorem ActsMaySend.append_left {acts : List Act} {e : Sending} (h : ActsMaySend acts e)
    (first : List Act) : ActsMaySend (first ++ acts) e := by
  obtain ⟨x, reply, hx, he⟩ := h
  exact ⟨x, reply, List.mem_append_right _ hx, he⟩

/-- What is sent for exchanges side by side is sent for one of them. -/
theorem ActsMaySend.of_triesIfAny {xs : List (Option Exchange)} {answered : Bool}
    {parts : List (List Signal)} {shown : List Signal} {acts : List Act}
    (tries : List.Forall₂ (Exchange.TriesIfAny answered) xs parts) (merges : Merges parts shown)
    (hacts : ∀ x, some x ∈ xs → ∃ reply, Act.exchange x reply ∈ acts) {e : Sending}
    (he : .sent e.1 e.2.1 ∈ shown) : ActsMaySend acts e := by
  obtain ⟨part, hpart, he⟩ := List.mem_flatten.mp (merges.perm.mem_iff.mp he)
  obtain ⟨x, hx, hxe⟩ := exists_left_of_forall₂ tries hpart
  cases x with
  | none =>
    have hnone : part = [] := hxe
    rw [hnone] at he
    cases he
  | some x =>
    obtain ⟨reply, hreply⟩ := hacts x hx
    exact ⟨x, reply, hreply, Exchange.Tries.maySend hxe he⟩

namespace Program

/-! ## One program -/

/-- The program may do these acts, give these signals, both in this order, and come to this value,
or to none. -/
inductive Shows : Program α → List Act → List Signal → Option α → Prop where
  | done (a : α) : Shows (.done a) [] [] (some a)
  | note {n : Note} {next : Program α} {acts : List Act} {signals : List Signal} {v : Option α}
      (h : Shows next acts signals v) :
      Shows (.note n next) (.note n :: acts) (n.signal?.toList ++ signals) v
  | sleep {d : Duration} {next : Program α} {acts : List Act} {signals : List Signal}
      {v : Option α} (h : Shows next acts signals v) : Shows (.sleep d next) acts signals v
  | exchange {x : Exchange} {next : Reply → Program α} {acts : List Act}
      {shown signals : List Signal} {v : Option α} (reply : Reply) (tries : x.Tries true shown)
      (h : Shows (next reply) acts signals v) :
      Shows (.exchange x next) (.exchange x (some reply) :: acts) (shown ++ signals) v
  | exchanges {xs : List (Option Exchange)} {next : List (Option Reply) → Program α}
      {first acts : List Act} {parts : List (List Signal)} {shown signals : List Signal}
      {v : Option α} {replies : List (Option Reply)}
      (answered : Exchange.Answered xs replies first)
      (tries : List.Forall₂ (Exchange.TriesIfAny true) xs parts) (merges : Merges parts shown)
      (h : Shows (next replies) acts signals v) :
      Shows (.exchanges xs next) (first ++ acts) (shown ++ signals) v
  | asleep {d : Duration} {next : Program α} : Shows (.sleep d next) [] [] none
  | unanswered {x : Exchange} {next : Reply → Program α} {shown : List Signal}
      (tries : x.Tries false shown) : Shows (.exchange x next) [.exchange x none] shown none
  | unansweredAll {xs : List (Option Exchange)} {next : List (Option Reply) → Program α}
      {parts : List (List Signal)} {shown : List Signal}
      (tries : List.Forall₂ (Exchange.TriesIfAny false) xs parts) (merges : Merges parts shown) :
      Shows (.exchanges xs next) (Exchange.unanswered xs) shown none

/-- The program may have done these acts and given these signals, be it none because it has not
begun. -/
def MayHaveShown (p : Program α) (acts : List Act) (signals : List Signal) (v : Option α) : Prop :=
  p.Shows acts signals v ∨ acts = [] ∧ signals = [] ∧ v = none

namespace Shows

theorem does {p : Program α} {acts : List Act} {signals : List Signal} {v : Option α}
    (h : p.Shows acts signals v) : p.Does acts v := by
  induction h with
  | done a => exact .done a
  | note _ ih => exact .note ih
  | sleep _ ih => exact .sleep ih
  | exchange reply _ _ ih => exact .exchange reply ih
  | exchanges answered _ _ _ ih => exact .exchanges answered ih
  | asleep => exact .asleep
  | unanswered => exact .unanswered
  | unansweredAll => exact .unansweredAll

/-- All that a program sends belongs to its exchanges. -/
theorem actsMaySend {p : Program α} {acts : List Act} {signals : List Signal} {v : Option α}
    (h : p.Shows acts signals v) {e : Sending} (he : .sent e.1 e.2.1 ∈ signals) :
    ActsMaySend acts e := by
  induction h with
  | done a => exact nomatch he
  | @note n next acts signals v _ ih =>
    rcases List.mem_append.mp he with he | he
    · cases n <;> simp [Note.signal?] at he
    · exact (ih he).append_left [_]
  | sleep _ ih => exact ih he
  | exchange reply tries _ ih =>
    rcases List.mem_append.mp he with he | he
    · exact ⟨_, _, List.mem_cons_self .., tries.maySend he⟩
    · exact (ih he).append_left [_]
  | exchanges answered tries merges _ ih =>
    rcases List.mem_append.mp he with he | he
    · refine .of_triesIfAny tries merges (fun x hx => ?_) he
      obtain ⟨reply, hreply⟩ := answered.exists_exchange hx
      exact ⟨reply, List.mem_append_left _ hreply⟩
    · exact (ih he).append_left _
  | asleep => exact nomatch he
  | unanswered tries => exact ⟨_, none, List.mem_singleton_self _, tries.maySend he⟩
  | unansweredAll tries merges =>
    exact .of_triesIfAny tries merges
      (fun x hx => ⟨none, List.mem_filterMap.mpr ⟨_, hx, rfl⟩⟩) he

/-- A program that is made of two is left in the first of them, or goes on with the second. -/
theorem of_bind {p : Program α} {f : α → Program β} {acts : List Act} {signals : List Signal}
    {v : Option β} (h : (p >>= f).Shows acts signals v) :
    (∃ first shown a rest later, p.Shows first shown (some a) ∧ (f a).Shows rest later v ∧
      acts = first ++ rest ∧ signals = shown ++ later) ∨ p.Shows acts signals none ∧ v = none := by
  change (p.bind f).Shows acts signals v at h
  induction p generalizing acts signals with
  | done a => exact .inl ⟨[], [], a, acts, signals, .done a, h, rfl, rfl⟩
  | note n next ih =>
    cases h with
    | note h =>
      rcases ih h with ⟨first, shown, a, rest, later, hfirst, hrest, rfl, rfl⟩ | ⟨hleft, rfl⟩
      · exact .inl ⟨_, _, a, rest, later, .note hfirst, hrest, rfl, (List.append_assoc ..).symm⟩
      · exact .inr ⟨.note hleft, rfl⟩
  | sleep d next ih =>
    cases h with
    | sleep h =>
      rcases ih h with ⟨first, shown, a, rest, later, hfirst, hrest, rfl, rfl⟩ | ⟨hleft, rfl⟩
      · exact .inl ⟨_, _, a, rest, later, .sleep hfirst, hrest, rfl, rfl⟩
      · exact .inr ⟨.sleep hleft, rfl⟩
    | asleep => exact .inr ⟨.asleep, rfl⟩
  | exchange x next ih =>
    cases h with
    | exchange reply tries h =>
      rcases ih reply h with
        ⟨first, shown, a, rest, later, hfirst, hrest, rfl, rfl⟩ | ⟨hleft, rfl⟩
      · exact .inl ⟨_, _, a, rest, later, .exchange reply tries hfirst, hrest, rfl,
          (List.append_assoc ..).symm⟩
      · exact .inr ⟨.exchange reply tries hleft, rfl⟩
    | unanswered tries => exact .inr ⟨.unanswered tries, rfl⟩
  | exchanges xs next ih =>
    cases h with
    | exchanges answered tries merges h =>
      rcases ih _ h with ⟨first, shown, a, rest, later, hfirst, hrest, rfl, rfl⟩ | ⟨hleft, rfl⟩
      · exact .inl ⟨_, _, a, rest, later, .exchanges answered tries merges hfirst, hrest,
          (List.append_assoc ..).symm, (List.append_assoc ..).symm⟩
      · exact .inr ⟨.exchanges answered tries merges hleft, rfl⟩
    | unansweredAll tries merges => exact .inr ⟨.unansweredAll tries merges, rfl⟩

theorem of_pure {a : α} {acts : List Act} {signals : List Signal} {v : Option α}
    (h : (pure a : Program α).Shows acts signals v) : acts = [] ∧ signals = [] ∧ v = some a := by
  change (Program.done a).Shows acts signals v at h
  cases h
  exact ⟨rfl, rfl, rfl⟩

theorem of_performAll {xs : List (Option Exchange)} {acts : List Act} {signals : List Signal}
    {v : Option (List (Option Reply))} (h : (performAll xs).Shows acts signals v) :
    ∃ parts, List.Forall₂ (Exchange.TriesIfAny v.isSome) xs parts ∧ Merges parts signals := by
  cases h with
  | exchanges answered tries merges h =>
    cases h
    rw [List.append_nil]
    exact ⟨_, tries, merges⟩
  | unansweredAll tries merges => exact ⟨_, tries, merges⟩

end Shows

theorem MayHaveShown.mayHaveDone {p : Program α} {acts : List Act} {signals : List Signal}
    {v : Option α} (h : p.MayHaveShown acts signals v) : p.MayHaveDone acts v :=
  h.imp Shows.does fun h => ⟨h.1, h.2.2⟩

variable {t : Transport σ}

/-- **Alone**, a program shows what it may show. -/
theorem exists_shows_run (p : Program α) (w : World σ) :
    ∃ acts signals, p.Shows acts signals (p.run t w).1.toOption ∧
      w.Gives (p.run t w).2 signals := by
  induction p generalizing w with
  | done a => exact ⟨[], [], .done a, .refl w⟩
  | note n next ih =>
    obtain ⟨acts, signals, hshows, hgives⟩ := ih (w.note n)
    exact ⟨_, _, .note hshows, (w.gives_note n).trans hgives⟩
  | sleep d next ih =>
    obtain ⟨acts, signals, hshows, hgives⟩ := ih (w.wait d.milliseconds)
    exact ⟨_, _, .sleep hshows, hgives⟩
  | exchange x next ih =>
    obtain ⟨shown, htries, hshown⟩ := x.exists_tries_run (t := t) (x.run t w).1.isOk w
    rw [run]
    rcases hx : x.run t w with ⟨b | reply, u⟩ <;> rw [hx] at htries hshown
    · exact ⟨_, _, .unanswered htries, hshown⟩
    · obtain ⟨acts, signals, hshows, hgives⟩ := ih reply u
      exact ⟨_, _, .exchange reply htries hshows, hshown.trans hgives⟩
  | exchanges xs next ih =>
    obtain ⟨shown, parts, hshown, htries, hmerges⟩ := Exchange.tries_runAll (t := t) xs w
    rw [run]
    rcases hxs : Exchange.runAll t xs w with ⟨b | replies, u⟩ <;> rw [hxs] at htries hshown
    · exact ⟨_, _, .unansweredAll htries hmerges, hshown⟩
    · obtain ⟨first, hfirst⟩ := Exchange.exists_answered_runAll xs w t (congrArg Prod.fst hxs)
      obtain ⟨acts, signals, hshows, hgives⟩ := ih replies u
      exact ⟨_, _, .exchanges hfirst htries hmerges hshows, hshown.trans hgives⟩

/-! ## Threads -/

open Exchange (State)

namespace Thread

/-- The thread may still do these acts, give these signals and come to this value, or to none. -/
inductive MayShow : Thread α → List Act → List Signal → Option α → Prop where
  | finished (a : α) : MayShow (finished a) [] [] (some a)
  | broken (b : Break) : MayShow (broken b) [] [] none
  | asleep {wake : Nat} {next : Program α} {acts : List Act} {signals : List Signal}
      {v : Option α} (h : next.MayHaveShown acts signals v) :
      MayShow (asleep wake next) acts signals v
  | awaiting {s : State} {next : Reply → Program α} {acts : List Act}
      {shown signals : List Signal} {v : Option α} (reply : Reply) (tries : s.Tries true shown)
      (h : (next reply).Shows acts signals v) :
      MayShow (awaiting s next) (.exchange s.exchange (some reply) :: acts) (shown ++ signals) v
  | unanswered {s : State} {next : Reply → Program α} {shown : List Signal}
      (tries : s.Tries false shown) :
      MayShow (awaiting s next) [.exchange s.exchange none] shown none
  | awaitingAll {states : List (Option State)} {next : List (Option Reply) → Program α}
      {first acts : List Act} {parts : List (List Signal)} {shown signals : List Signal}
      {v : Option α} {replies : List (Option Reply)}
      (answered : Exchange.Answered (State.exchanges states) replies first)
      (tries : List.Forall₂ (State.TriesIfAny true) states parts) (merges : Merges parts shown)
      (h : (next replies).Shows acts signals v) :
      MayShow (awaitingAll states next) (first ++ acts) (shown ++ signals) v
  | unansweredAll {states : List (Option State)} {next : List (Option Reply) → Program α}
      {parts : List (List Signal)} {shown : List Signal}
      (tries : List.Forall₂ (State.TriesIfAny false) states parts) (merges : Merges parts shown) :
      MayShow (awaitingAll states next) (Exchange.unanswered (State.exchanges states)) shown none

/-- A thread may be left as it is. -/
theorem exists_mayShow (s : Thread α) :
    ∃ acts, s.MayShow acts [] (s.result?.bind Except.toOption) := by
  cases s with
  | finished a => exact ⟨_, .finished a⟩
  | broken b => exact ⟨_, .broken b⟩
  | asleep wake next => exact ⟨_, .asleep (.inr ⟨rfl, rfl, rfl⟩)⟩
  | awaiting s next => exact ⟨_, .unanswered (State.tries_nil Bool.noConfusion)⟩
  | awaitingAll states next =>
    have hparts : List.Forall₂ (State.TriesIfAny false) states (states.map fun _ => []) := by
      refine List.forall₂_map_right_iff.mpr (List.forall₂_same.mpr fun s _ => ?_)
      cases s with
      | none => rfl
      | some s => exact State.tries_nil Bool.noConfusion
    refine ⟨_, .unansweredAll hparts (.nil fun part hpart => ?_)⟩
    obtain ⟨s, -, rfl⟩ := List.mem_map.mp hpart
    rfl

theorem MayShow.toOption_eq {s : Thread α} {acts : List Act} {signals : List Signal}
    {v : Option α} (h : s.MayShow acts signals v) {result : Except Break α}
    (hs : s.result? = some result) : result.toOption = v := by
  cases h with
  | finished a =>
    cases hs
    rfl
  | broken b =>
    cases hs
    rfl
  | _ => cases hs

/-- Whatever may come after `b` may come after `a`, behind what is done and seen in between. -/
def Reveals (a b : Thread α × World σ) : Prop :=
  ∀ acts signals v, b.1.MayShow acts signals v → ∃ done shown,
    a.1.MayShow (done ++ acts) (shown ++ signals) v ∧ a.2.Gives b.2 shown

end Thread

/-- Whatever may come after the program has begun may come of it, behind what is done and seen at
once. -/
def BeginsWith (t : Transport σ) (p : Program α) : Prop :=
  ∀ (w : World σ) acts signals v, (p.start t w).1.MayShow acts signals v →
    ∃ done shown, p.Shows (done ++ acts) (shown ++ signals) v ∧ w.Gives (p.start t w).2 shown

namespace Thread

/-- A thread that waits for a reply, and then goes on with it. -/
theorem reveals_awaiting {next : Reply → Program α} (hnext : ∀ reply, (next reply).BeginsWith t)
    (s : State) (w : World σ) : Reveals (awaiting s next, w) ((awaiting s next).advance t w) := by
  intro acts signals v hv
  have hexchange := s.exchange_advance (t := t) w
  simp only [advance] at hv ⊢
  split at hv
  · rename_i reply hreply
    have hended : (s.advance t w).1.Tries true [] := State.tries_nil fun _ hidle => by
      rw [State.result?, hidle] at hreply
      cases hreply
    obtain ⟨done, shown, hshows, hgives⟩ := hnext reply _ acts signals v hv
    obtain ⟨first, hfirst, htries⟩ := State.tries_advance s w hended
    rw [List.append_nil] at htries
    refine ⟨.exchange s.exchange (some reply) :: done, first ++ shown, ?_, hfirst.trans hgives⟩
    rw [List.append_assoc]
    exact .awaiting reply htries hshows
  · rename_i b hb
    cases hv
    have hleft : (s.advance t w).1.Tries false [] := State.tries_nil Bool.noConfusion
    obtain ⟨first, hfirst, htries⟩ := State.tries_advance s w hleft
    refine ⟨[.exchange s.exchange none], first, ?_, hfirst⟩
    rw [List.append_nil]
    exact .unanswered htries
  · cases hv with
    | awaiting reply tries h =>
      obtain ⟨first, hfirst, htries⟩ := State.tries_advance s w tries
      refine ⟨[], first, ?_, hfirst⟩
      rw [hexchange, ← List.append_assoc]
      exact .awaiting reply htries h
    | unanswered tries =>
      obtain ⟨first, hfirst, htries⟩ := State.tries_advance s w tries
      refine ⟨[], first, ?_, hfirst⟩
      rw [hexchange]
      exact .unanswered htries

/-- A thread that waits for replies, and then goes on with them. -/
theorem reveals_awaitingAll {next : List (Option Reply) → Program α}
    (hnext : ∀ replies, (next replies).BeginsWith t) (states : List (Option State)) (w : World σ) :
    Reveals (awaitingAll states next, w) ((awaitingAll states next).advance t w) := by
  intro acts signals v hv
  have hexchanges := State.exchanges_advanceAll (t := t) states w
  simp only [advance] at hv ⊢
  split at hv
  · rename_i replies hreplies
    obtain ⟨done, shown, hshows, hgives⟩ := hnext replies _ acts signals v hv
    obtain ⟨first, hanswered⟩ := State.exists_answered (State.ended_of_results? hreplies)
    obtain ⟨parts, hparts, hmerges⟩ := State.tries_of_results? hreplies
    obtain ⟨seen, begun, hseen, htries, hmerge⟩ := State.tries_advanceAll states w hparts
    have hbegun := hmerge [] [] hmerges
    rw [List.append_nil] at hbegun
    rw [hexchanges] at hanswered
    refine ⟨first ++ done, seen ++ shown, ?_, hseen.trans hgives⟩
    rw [List.append_assoc, List.append_assoc]
    exact .awaitingAll hanswered htries hbegun hshows
  · rename_i b hb
    cases hv
    obtain ⟨parts, hparts, hmerges⟩ := State.tries_of_results? hb
    obtain ⟨seen, begun, hseen, htries, hmerge⟩ := State.tries_advanceAll states w hparts
    refine ⟨Exchange.unanswered (State.exchanges states), seen, ?_, hseen⟩
    rw [List.append_nil]
    exact .unansweredAll htries (hmerge [] [] hmerges)
  · cases hv with
    | awaitingAll answered tries merges h =>
      obtain ⟨seen, begun, hseen, htries, hmerge⟩ := State.tries_advanceAll states w tries
      rw [hexchanges] at answered
      refine ⟨[], seen, ?_, hseen⟩
      rw [List.nil_append, ← List.append_assoc]
      exact .awaitingAll answered htries (hmerge [] _ merges) h
    | unansweredAll tries merges =>
      obtain ⟨seen, begun, hseen, htries, hmerge⟩ := State.tries_advanceAll states w tries
      refine ⟨[], seen, ?_, hseen⟩
      rw [hexchanges]
      exact .unansweredAll htries (hmerge [] _ merges)

end Thread

theorem start_exchange (x : Exchange) (next : Reply → Program α) (w : World σ) :
    (exchange x next).start t w = (Thread.awaiting (State.idle x) next).advance t w := by
  rw [start]
  rfl

theorem start_exchanges (xs : List (Option Exchange)) (next : List (Option Reply) → Program α)
    (w : World σ) : (exchanges xs next).start t w =
      (Thread.awaitingAll (xs.map fun x => x.map State.idle) next).advance t w := by
  rw [start]
  rfl

theorem beginsWith_exchange {next : Reply → Program α} (hnext : ∀ reply, (next reply).BeginsWith t)
    (x : Exchange) : (exchange x next).BeginsWith t := by
  intro w acts signals v hv
  rw [start_exchange] at hv ⊢
  obtain ⟨done, shown, hmay, hgives⟩ :=
    Thread.reveals_awaiting hnext (State.idle x) w acts signals v hv
  refine ⟨done, shown, ?_, hgives⟩
  generalize done ++ acts = acts, shown ++ signals = signals at hmay ⊢
  cases hmay with
  | awaiting reply tries h =>
    exact .exchange reply (State.triesIfAny_idle_iff (x := x).mp tries) h
  | unanswered tries => exact .unanswered (State.triesIfAny_idle_iff (x := x).mp tries)

theorem beginsWith_exchanges {next : List (Option Reply) → Program α}
    (hnext : ∀ replies, (next replies).BeginsWith t) (xs : List (Option Exchange)) :
    (exchanges xs next).BeginsWith t := by
  intro w acts signals v hv
  rw [start_exchanges] at hv ⊢
  obtain ⟨done, shown, hmay, hgives⟩ :=
    Thread.reveals_awaitingAll hnext (xs.map fun x => x.map State.idle) w acts signals v hv
  refine ⟨done, shown, ?_, hgives⟩
  have htries {answered : Bool} {parts : List (List Signal)}
      (h : List.Forall₂ (State.TriesIfAny answered) (xs.map fun x => x.map State.idle) parts) :
      List.Forall₂ (Exchange.TriesIfAny answered) xs parts :=
    (List.forall₂_map_left_iff.mp h).imp fun _ _ h => State.triesIfAny_idle_iff.mp h
  have hxs := State.exchanges_idle xs
  generalize done ++ acts = acts, shown ++ signals = signals at hmay ⊢
  generalize hstates : (xs.map fun x => x.map State.idle) = states at hmay htries hxs
  cases hmay with
  | awaitingAll answered tries merges h =>
    rw [hxs] at answered
    exact .exchanges answered (htries tries) merges h
  | unansweredAll tries merges =>
    rw [hxs]
    exact .unansweredAll (htries tries) merges

/-- **What a program shows when it begins**, as far as the next point in time at which something
happens. -/
theorem beginsWith (t : Transport σ) (p : Program α) : p.BeginsWith t := by
  induction p with
  | done a =>
    intro w acts signals v hv
    cases hv
    exact ⟨[], [], .done a, .refl w⟩
  | note n next ih =>
    intro w acts signals v hv
    obtain ⟨done, shown, hshows, hgives⟩ := ih (w.note n) acts signals v hv
    refine ⟨.note n :: done, n.signal?.toList ++ shown, ?_, (w.gives_note n).trans hgives⟩
    rw [List.append_assoc]
    exact .note hshows
  | sleep d next ih =>
    intro w acts signals v hv
    rw [start] at hv ⊢
    by_cases hd : d.milliseconds = 0
    · rw [if_pos hd] at hv ⊢
      obtain ⟨done, shown, hshows, hgives⟩ := ih w acts signals v hv
      exact ⟨done, shown, .sleep hshows, hgives⟩
    · rw [if_neg hd] at hv ⊢
      cases hv with
      | asleep h =>
        rcases h with h | ⟨rfl, rfl, rfl⟩
        · exact ⟨[], [], .sleep h, .refl w⟩
        · exact ⟨[], [], .asleep, .refl w⟩
  | exchange x next ih => exact beginsWith_exchange ih x
  | exchanges xs next ih => exact beginsWith_exchanges ih xs

/-- **What a thread shows when it is looked at.** -/
theorem Thread.reveals_advance (s : Thread α) (w : World σ) :
    Thread.Reveals (s, w) (s.advance t w) := by
  cases s with
  | finished a => exact fun acts signals v hv => ⟨[], [], hv, .refl w⟩
  | broken b => exact fun acts signals v hv => ⟨[], [], hv, .refl w⟩
  | asleep wake next =>
    intro acts signals v hv
    rw [advance] at hv ⊢
    by_cases hwake : wake ≤ w.now
    · rw [if_pos hwake] at hv ⊢
      obtain ⟨done, shown, hshows, hgives⟩ := next.beginsWith t w acts signals v hv
      exact ⟨done, shown, .asleep (.inl hshows), hgives⟩
    · rw [if_neg hwake] at hv ⊢
      exact ⟨[], [], hv, .refl w⟩
  | awaiting s next => exact reveals_awaiting (fun reply => (next reply).beginsWith t) s w
  | awaitingAll states next =>
    exact reveals_awaitingAll (fun replies => (next replies).beginsWith t) states w

/-! ## Programs side by side -/

/-- What a program does, what is seen of it and what it comes to. -/
structure Performance (α : Type) where
  acts : List Act
  signals : List Signal
  value : Option α

/-- What each of some threads may still show. -/
def AllMayShow (threads : List (Thread α)) (later : List (Performance α)) : Prop :=
  List.Forall₂ (fun s r => s.MayShow r.acts r.signals r.value) threads later

/-- **One instant**: threads go on in order, and whatever comes of them afterwards may be merged. -/
theorem exists_mayShow_advanceAll (threads : List (Thread α)) (w : World σ)
    {later : List (Performance α)} (h : AllMayShow (Thread.advanceAll t threads w).1 later) :
    ∃ runs shown, AllMayShow threads runs ∧
      runs.map Performance.value = later.map Performance.value ∧
      w.Gives (Thread.advanceAll t threads w).2 shown ∧
      ∀ before rest, Merges (before ++ later.map Performance.signals) rest →
        Merges (before ++ runs.map Performance.signals) (shown ++ rest) := by
  induction threads generalizing w later with
  | nil =>
    cases h
    exact ⟨[], [], .nil, rfl, .refl w, fun before rest hrest => hrest⟩
  | cons s threads ih =>
    rw [Thread.advanceAll_cons] at h ⊢
    by_cases hbreaks : (s.advance t w).1.break?.isSome
    · rw [if_pos hbreaks] at h ⊢
      cases h with
      | @cons _ r _ later hr hrest =>
        obtain ⟨done, first, hs, hfirst⟩ := s.reveals_advance w _ _ _ hr
        exact ⟨⟨done ++ r.acts, first ++ r.signals, r.value⟩ :: later, first, .cons hs hrest, rfl,
          hfirst, fun before rest hmerges => hmerges.prepend first⟩
    · rw [if_neg hbreaks] at h ⊢
      cases h with
      | @cons _ r _ later hr hrest =>
        obtain ⟨done, first, hs, hfirst⟩ := s.reveals_advance w _ _ _ hr
        obtain ⟨runs, shown, hruns, hvalues, hshown, hmerge⟩ := ih _ hrest
        refine ⟨⟨done ++ r.acts, first ++ r.signals, r.value⟩ :: runs, first ++ shown,
          .cons hs hruns, congrArg (r.value :: ·) hvalues, hfirst.trans hshown,
          fun before rest hmerges => ?_⟩
        rw [List.map_cons, List.append_cons] at hmerges
        have hlater := hmerge _ rest hmerges
        rw [← List.append_cons] at hlater
        rw [List.append_assoc]
        exact hlater.prepend first

/-- Instant after instant. -/
theorem exists_mayShow_finishAll (turns : Nat) (threads : List (Thread α)) (w : World σ)
    {later : List (Performance α)} {rest : List Signal}
    (h : AllMayShow (Thread.finishAll t turns threads w).1 later)
    (hmerges : Merges (later.map Performance.signals) rest) :
    ∃ runs shown, AllMayShow threads runs ∧
      runs.map Performance.value = later.map Performance.value ∧
      w.Gives (Thread.finishAll t turns threads w).2 shown ∧
      Merges (runs.map Performance.signals) (shown ++ rest) := by
  induction turns generalizing threads w with
  | zero => exact ⟨later, [], h, rfl, .refl w, hmerges⟩
  | succ turns ih =>
    rw [Thread.finishAll] at h ⊢
    split at h
    · rename_i k hbreak hk
      obtain ⟨runs', shown', hruns', hvalues', hshown', hmerges'⟩ := ih _ _ h
      -- no signal is given while time moves on
      obtain ⟨runs, shown, hruns, hvalues, hshown, hmerge⟩ :=
        exists_mayShow_advanceAll threads (State.jump w k) hruns'
      have hjump : w.Gives (Thread.advanceAll t threads (State.jump w k)).2 shown := hshown
      refine ⟨runs, shown ++ shown', hruns, hvalues.trans hvalues', hjump.trans hshown', ?_⟩
      rw [List.append_assoc]
      exact hmerge [] _ hmerges'
    · exact ⟨later, [], h, rfl, .refl w, hmerges⟩

/-- **Side by side**, programs show what they may show, given the instants they take together. -/
theorem exists_shows_together {programs : List (Program α)} {ns : List Nat}
    (h : List.Forall₂ Within programs ns) {turns : Nat} (hsum : ns.sum ≤ turns) (w : World σ) :
    ∃ runs merged,
      List.Forall₂ (fun p (r : Performance α) => p.MayHaveShown r.acts r.signals r.value)
        programs runs ∧
      (together t turns programs w).1.toOption = runs.mapM Performance.value ∧
      Merges (runs.map Performance.signals) merged ∧
      w.Gives (together t turns programs w).2 merged := by
  have hover := over_together (t := t) h hsum w
  rw [together]
  generalize hbegun : Thread.advanceAll t (programs.map (.asleep w.now)) w = begun at hover ⊢
  generalize hfinal : Thread.finishAll t turns begun.1 begun.2 = final at hover ⊢
  -- what all threads are left with when they are over is that nothing more is shown
  choose acts hacts using fun s : Thread α => s.exists_mayShow
  have hleft : AllMayShow final.1 (final.1.map fun s =>
      ⟨acts s, [], s.result?.bind Except.toOption⟩) :=
    List.forall₂_map_right_iff.mpr (List.forall₂_same.mpr fun s _ => hacts s)
  generalize hlater : (final.1.map fun s : Thread α =>
      (⟨acts s, [], s.result?.bind Except.toOption⟩ : Performance α)) = left at hleft
  have hnothing : Merges (left.map Performance.signals) [] := by
    rw [← hlater, List.map_map]
    exact .nil fun part hpart => (List.mem_map.mp hpart).choose_spec.2.symm
  subst hfinal
  obtain ⟨later, shown', hlater, hvalues', hgives', hmerges'⟩ :=
    exists_mayShow_finishAll turns begun.1 begun.2 hleft hnothing
  subst hbegun
  obtain ⟨runs, shown, hruns, hvalues, hgives, hmerge⟩ :=
    exists_mayShow_advanceAll (programs.map (.asleep w.now)) w hlater
  refine ⟨runs, shown ++ (shown' ++ []), ?_, ?_, hmerge [] _ hmerges', ?_⟩
  · refine (List.forall₂_map_left_iff.mp hruns).imp fun p r hr => ?_
    cases hr with
    | asleep hr => exact hr
  · have hresults := hover.toOption_results (f := Performance.value)
      (hleft.flip.imp fun r s hr _ => hr.toOption_eq)
    rw [hresults, ← Function.id_comp Performance.value, ← List.mapM_map, ← List.mapM_map,
      hvalues, hvalues']
  · rw [List.append_nil]
    exact hgives.trans hgives'

end Program

/-! ## Runs of sets -/

namespace RunOptions

open Program (Performance)

variable {t : Transport σ}

theorem exists_shows_runInOrder (o : RunOptions) (env : Environment) (sets : List TestSet)
    (w : World σ) :
    ∃ runs : List (Performance Outcome),
      List.Forall₂ (fun s r => (s.run o.retry env).MayHaveShown r.acts r.signals r.value)
        sets runs ∧
      (runInOrder t o env sets w).1.toOption = runs.mapM Performance.value ∧
      w.Gives (runInOrder t o env sets w).2 (runs.map Performance.signals).flatten := by
  induction sets generalizing w with
  | nil => exact ⟨[], .nil, rfl, .refl w⟩
  | cons s rest ih =>
    obtain ⟨acts, signals, hshows, hfirst⟩ := (s.run o.retry env).exists_shows_run (t := t) w
    rw [runInOrder]
    rcases hrun : (s.run o.retry env).run t w with ⟨b | outcome, u⟩ <;> rw [hrun] at hshows hfirst
    · -- the sets after one that breaks off do not begin
      have hrest : List.Forall₂ (fun s (r : Performance Outcome) =>
          (s.run o.retry env).MayHaveShown r.acts r.signals r.value) rest
          (rest.map fun _ => ⟨[], [], none⟩) :=
        List.forall₂_map_right_iff.mpr (List.forall₂_same.mpr fun _ _ => .inr ⟨rfl, rfl, rfl⟩)
      refine ⟨⟨acts, signals, none⟩ :: rest.map fun _ => ⟨[], [], none⟩, .cons (.inl hshows) hrest,
        (mapM_eq_none_of_mem (List.mem_cons_self ..) rfl).symm, ?_⟩
      have hnone : ((rest.map fun _ => (⟨[], [], none⟩ : Performance Outcome)).map
          Performance.signals).flatten = [] := by
        rw [List.map_map, List.flatten_eq_nil_iff]
        exact fun part hpart => (List.mem_map.mp hpart).choose_spec.2.symm
      rw [List.map_cons, List.flatten_cons, hnone, List.append_nil]
      exact hfirst
    · obtain ⟨runs, hruns, hvalues, hlater⟩ := ih u
      refine ⟨⟨acts, signals, some outcome⟩ :: runs, .cons (.inl hshows) hruns, ?_, ?_⟩
      · rw [Ran.andThen_ok, Ran.toOption_andThen, hvalues, List.mapM_cons]
        rfl
      · rw [Ran.andThen_ok]
        rcases hlast : runInOrder t o env rest u with ⟨b | outcomes, v⟩ <;> rw [hlast] at hlater <;>
          exact hfirst.trans hlater

theorem gives_lines (w : World σ) (lines : List String) :
    w.Gives (lines.foldl (fun w line => w.note (.line line)) w) [] := by
  induction lines generalizing w with
  | nil => exact .refl w
  | cons line rest ih => exact (w.gives_note (.line line)).trans (ih _)

theorem exists_shows_outcomes (o : RunOptions) (t : Transport σ) (env : Environment)
    (sets : List TestSet) (w : World σ) :
    ∃ (runs : List (Performance Outcome)) (merged : List Signal),
      List.Forall₂ (fun s r => (s.run o.retry env).MayHaveShown r.acts r.signals r.value)
        sets runs ∧
      (o.outcomes t env sets w).1.toOption = runs.mapM Performance.value ∧
      Merges (runs.map Performance.signals) merged ∧
      (o.concurrent = false → merged = (runs.map Performance.signals).flatten) ∧
      w.Gives (o.outcomes t env sets w).2 merged := by
  rw [outcomes]
  cases o.concurrent with
  | false =>
    obtain ⟨runs, hruns, hvalues, hgives⟩ := o.exists_shows_runInOrder (t := t) env sets w
    exact ⟨runs, _, hruns, hvalues, .flatten _, fun _ => rfl, hgives⟩
  | true =>
    obtain ⟨runs, merged, hruns, hvalues, hmerges, hgives⟩ := Program.exists_shows_together
      (t := t) (o.within_sets env sets) (Nat.le_of_eq (sum_turns_eq sets)) w
    exact ⟨runs, merged, List.forall₂_map_left_iff.mp hruns, hvalues, hmerges,
      Bool.noConfusion, hgives⟩

/-- **What is seen of a run of sets**, in order or side by side and against any transport: each set
shows what it may show, the report is that of what they come to, if each of them comes to something,
and the signals of the run are theirs, merged in some way or one set after the other. -/
theorem exists_performances (o : RunOptions) (t : Transport σ) (env : Environment)
    (sets : List TestSet) (w : World σ) :
    ∃ (runs : List (Performance Outcome)) (merged : List Signal),
      List.Forall₂ (fun s r => (s.run o.retry env).MayHaveShown r.acts r.signals r.value)
        sets runs ∧
      (o.run t env sets w).1.toOption = (runs.mapM Performance.value).map Report.ofOutcomes ∧
      Merges (runs.map Performance.signals) merged ∧
      (o.concurrent = false → merged = (runs.map Performance.signals).flatten) ∧
      w.Gives (o.run t env sets w).2 merged := by
  obtain ⟨runs, merged, hruns, hvalues, hmerges, horder, hgives⟩ :=
    o.exists_shows_outcomes t env sets (begin t sets w)
  refine ⟨runs, merged, hruns, ?_, hmerges, horder, ?_⟩
  · rw [run_eq_outcomes, hvalues]
  · have houtcomes : w.Gives (o.outcomes t env sets (begin t sets w)).2 merged :=
      (w.gives_note _).trans hgives
    rw [run]
    rcases ho : o.outcomes t env sets (begin t sets w) with ⟨b | outcomes, u⟩ <;>
      rw [ho] at houtcomes
    · exact houtcomes
    · rw [← List.append_nil merged]
      exact houtcomes.trans (gives_lines _ _)

/-- **What a run of sets sends.**  Each set does what it may do, the report is that of what they
come to, and all that is sent belongs to their exchanges. -/
theorem exists_runs (o : RunOptions) (t : Transport σ) (env : Environment) (sets : List TestSet)
    (w : World σ) :
    ∃ runs : List (List Act × Option Outcome),
      List.Forall₂ (fun s r => (s.run o.retry env).MayHaveDone r.1 r.2) sets runs ∧
      (o.run t env sets w).1.toOption = (runs.mapM Prod.snd).map Report.ofOutcomes ∧
      w.Gains (o.run t env sets w).2 fun e => ∃ r ∈ runs, ActsMaySend r.1 e := by
  obtain ⟨runs, merged, hruns, hreport, hmerges, -, hgives⟩ := o.exists_performances t env sets w
  refine ⟨runs.map fun r => (r.acts, r.value), ?_, ?_, hgives.gains fun e he => ?_⟩
  · exact List.forall₂_map_right_iff.mpr (hruns.imp fun s r hr => hr.mayHaveDone)
  · rw [hreport, List.mapM_map]
    rfl
  · obtain ⟨part, hpart, he⟩ := List.mem_flatten.mp (hmerges.perm.mem_iff.mp he)
    obtain ⟨r, hr, rfl⟩ := List.mem_map.mp hpart
    obtain ⟨s, -, hshows | ⟨-, hnone, -⟩⟩ := exists_left_of_forall₂ hruns hr
    · exact ⟨_, List.mem_map_of_mem hr, hshows.actsMaySend he⟩
    · rw [hnone] at he
      cases he

end RunOptions

end HttpSuite
