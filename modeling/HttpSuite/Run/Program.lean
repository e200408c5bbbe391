import HttpSuite.Run.Exchange

/-!
# Programs

What a run does is a program: it notes, sleeps and exchanges, and goes on with what comes back.
`Program.run` carries out one program alone.  `Program.together` carries out several side by side:
in each instant those that can go on do so in their order, and then time moves straight to the next
point at which something happens.  Where an exchange breaks off, so does the program, and with it
all those that it is carried out with.
-/

namespace HttpSuite

inductive Program (α : Type) where
  | done (a : α)
  | note (n : Note) (next : Program α)
  | sleep (d : Duration) (next : Program α)
  | exchange (x : Exchange) (next : Reply → Program α)
  /-- Exchanges side by side; there is no reply where there is no exchange. -/
  | exchanges (xs : List (Option Exchange)) (next : List (Option Reply) → Program α)

namespace Program

variable {α β : Type}

def bind : Program α → (α → Program β) → Program β
  | done a, f => f a
  | note n next, f => note n (next.bind f)
  | sleep d next, f => sleep d (next.bind f)
  | exchange x next, f => exchange x fun r => (next r).bind f
  | exchanges xs next, f => exchanges xs fun rs => (next rs).bind f

instance : Monad Program where
  pure := done
  bind := bind

/-- Notes in order. -/
def notes : List Note → Program Unit
  | [] => done ()
  | n :: rest => note n (notes rest)

def pause (d : Duration) : Program Unit := sleep d (done ())

def perform (x : Exchange) : Program Reply := exchange x done

def performAll (xs : List (Option Exchange)) : Program (List (Option Reply)) := exchanges xs done

variable {σ : Type} (t : Transport σ)

/-- Carries out a program alone. -/
def run : Program α → World σ → Ran σ α
  | done a, w => (.ok a, w)
  | note n next, w => next.run (w.note n)
  | sleep d next, w => next.run (w.wait d.milliseconds)
  | exchange x next, w => (x.run t w).andThen fun reply w => (next reply).run w
  | exchanges xs next, w => (Exchange.runAll t xs w).andThen fun replies w => (next replies).run w

/-! ## Programs side by side -/

open Exchange (State)

/-- A program as far as it has gone. -/
inductive Thread (α : Type) where
  | finished (a : α)
  | broken (b : Break)
  | asleep (wake : Nat) (next : Program α)
  | awaiting (s : State) (next : Reply → Program α)
  | awaitingAll (states : List (Option State)) (next : List (Option Reply) → Program α)

/-- Begins a program and goes on as far as the next point in time at which something happens. -/
def start : Program α → World σ → Thread α × World σ
  | done a, w => (.finished a, w)
  | note n next, w => next.start (w.note n)
  | sleep d next, w =>
    if d.milliseconds = 0 then next.start w else (.asleep (w.now + d.milliseconds) next, w)
  | exchange x next, w =>
    let (s, w) := (State.idle x).advance t w
    match s.result? with
    | some (.ok reply) => (next reply).start w
    | some (.error b) => (.broken b, w)
    | none => (.awaiting s next, w)
  | exchanges xs next, w =>
    let (states, w) := State.advanceAll t (xs.map fun x => x.map State.idle) w
    match State.results? states with
    | some (.ok replies) => (next replies).start w
    | some (.error b) => (.broken b, w)
    | none => (.awaitingAll states next, w)

namespace Thread

/-- Goes on if something happens now. -/
def advance : Thread α → World σ → Thread α × World σ
  | finished a, w => (finished a, w)
  | broken b, w => (broken b, w)
  | asleep wake next, w => if wake ≤ w.now then next.start t w else (asleep wake next, w)
  | awaiting s next, w =>
    let (s, w) := s.advance t w
    match s.result? with
    | some (.ok reply) => (next reply).start t w
    | some (.error b) => (broken b, w)
    | none => (awaiting s next, w)
  | awaitingAll states next, w =>
    let (states, w) := State.advanceAll t states w
    match State.results? states with
    | some (.ok replies) => (next replies).start t w
    | some (.error b) => (broken b, w)
    | none => (awaitingAll states next, w)

/-- The next point in time at which something happens. -/
def wake? : Thread α → Option Nat
  | finished _ | broken _ => none
  | asleep wake _ => some wake
  | awaiting s _ => s.wake?
  | awaitingAll states _ => (State.wakes states).min?

/-- What a thread has come to. -/
def result? : Thread α → Option (Except Break α)
  | finished a => some (.ok a)
  | broken b => some (.error b)
  | _ => none

def break? : Thread α → Option Break
  | broken b => some b
  | _ => none

/-- Goes on with each thread in order, as far as one that breaks off. -/
def advanceAll : List (Thread α) → World σ → List (Thread α) × World σ
  | [], w => ([], w)
  | s :: rest, w =>
    let (s, w) := s.advance t w
    if s.break?.isSome then (s :: rest, w)
    else
      let (rest, w) := advanceAll rest w
      (s :: rest, w)

/-- Goes on for a number of instants, or until all threads have finished or one has broken off. -/
def finishAll : Nat → List (Thread α) → World σ → List (Thread α) × World σ
  | 0, threads, w => (threads, w)
  | turns + 1, threads, w =>
    match threads.findSome? break?, (threads.filterMap wake?).min? with
    | none, some k =>
      let (threads, w) := advanceAll t threads (State.jump w k)
      finishAll turns threads w
    | _, _ => (threads, w)

/-- What threads have come to: a break where one has broken off, and otherwise the values of those
that have finished. -/
def results (threads : List (Thread α)) : Except Break (List α) :=
  match threads.findSome? break? with
  | some b => .error b
  | none => .ok (threads.filterMap fun s => s.result?.bind Except.toOption)

end Thread

/-- Carries out programs side by side, for at most a number of instants. -/
def together (turns : Nat) (programs : List (Program α)) (w : World σ) : Ran σ (List α) :=
  let (threads, w) := Thread.advanceAll t (programs.map (.asleep w.now)) w
  let (threads, w) := Thread.finishAll t turns threads w
  (Thread.results threads, w)

end Program

end HttpSuite
