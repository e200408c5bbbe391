import HttpSuite.Run.Program

/-!
# Laws of programs

What a program does is done in order: `Program.run_bind` splits a run at every `bind`, so that a run
of a test or of a set can be read one action at a time.  A run that breaks off does so in one of its
parts, and no part after it is carried out (`Ran.toOption_andThen`).  Notes change neither the time
nor the transport (`World.noteAll`).
-/

namespace HttpSuite

variable {σ α β γ : Type}

/-! ## Parts of a run -/

namespace Ran

variable (f : α → World σ → Ran σ β) (g : β → World σ → Ran σ γ)

@[simp] theorem andThen_ok (a : α) (w : World σ) :
    Ran.andThen (.ok a, w) f = f a w := rfl

@[simp] theorem andThen_error (b : Break) (w : World σ) :
    Ran.andThen (.error b, w) f = (.error b, w) := rfl

theorem andThen_assoc (r : Ran σ α) :
    (r.andThen f).andThen g = r.andThen fun a w => (f a w).andThen g := by
  rcases r with ⟨_ | _, _⟩ <;> rfl

theorem andThen_done (r : Ran σ α) : (r.andThen fun a w => (.ok a, w)) = r := by
  rcases r with ⟨_ | _, _⟩ <;> rfl

/-- What goes on comes to something if both parts do. -/
theorem toOption_andThen (r : Ran σ α) :
    (r.andThen f).1.toOption = r.1.toOption.bind fun a => (f a r.2).1.toOption := by
  rcases r with ⟨_ | _, _⟩ <;> rfl

end Ran

/-! ## Notes and requests -/

namespace World

/-- Notes in order. -/
def noteAll (w : World σ) (notes : List Note) : World σ := notes.foldl World.note w

@[simp] theorem transport_noteAll (w : World σ) (notes : List Note) :
    (w.noteAll notes).transport = w.transport := by
  induction notes generalizing w with
  | nil => rfl
  | cons n rest ih => exact ih (w.note n)

end World

/-- The request of an event, with its options and the time when it was sent. -/
def Event.sent? : Event → Option (Request × SendOptions × Nat)
  | .sent request options time => some (request, options, time)
  | .noted _ _ => none

/-- All that was sent so far, in order. -/
def World.sends (w : World σ) : List (Request × SendOptions × Nat) := w.events.filterMap Event.sent?

@[simp] theorem World.sends_noteAll (w : World σ) (notes : List Note) :
    (w.noteAll notes).sends = w.sends := by
  induction notes generalizing w with
  | nil => rfl
  | cons n rest ih =>
    have hn : (w.note n).sends = w.sends := by
      simp [World.sends, World.events, World.note, Event.sent?]
    exact (ih (w.note n)).trans hn

/-- A request, its options and the time when it was sent. -/
abbrev Sending := Request × SendOptions × Nat

namespace World

@[simp] theorem sends_note (w : World σ) (n : Note) : (w.note n).sends = w.sends :=
  w.sends_noteAll [n]

@[simp] theorem sends_wait (w : World σ) (milliseconds : Nat) :
    (w.wait milliseconds).sends = w.sends := rfl

theorem sends_send (t : Transport σ) (w : World σ) (request : Request) (options : SendOptions) :
    (w.send t request options).2.sends = w.sends ++ [(request, options, w.now)] := by
  simp [World.send, sends, events, Event.sent?]

end World

/-! ## Programs -/

namespace Program

variable (t : Transport σ)

theorem bind_assoc (p : Program α) (f : α → Program β) (g : β → Program γ) :
    (p >>= f) >>= g = p >>= fun a => f a >>= g := by
  change (p.bind f).bind g = p.bind fun a => (f a).bind g
  induction p with
  | done a => rfl
  | note n next ih => exact congrArg (note n) ih
  | sleep d next ih => exact congrArg (sleep d) ih
  | exchange x next ih => exact congrArg (exchange x) (funext ih)
  | exchanges xs next ih => exact congrArg (exchanges xs) (funext ih)

@[simp] theorem run_pure (a : α) (w : World σ) : (pure a : Program α).run t w = (.ok a, w) := rfl

theorem run_bind (p : Program α) (f : α → Program β) (w : World σ) :
    (p >>= f).run t w = (p.run t w).andThen fun a w => (f a).run t w := by
  induction p generalizing w with
  | done a => rfl
  | note n next ih => exact ih (w.note n)
  | sleep d next ih => exact ih (w.wait d.milliseconds)
  | exchange x next ih =>
    rw [run, Ran.andThen_assoc]
    exact congrArg _ (funext fun reply => funext (ih reply))
  | exchanges xs next ih =>
    rw [run, Ran.andThen_assoc]
    exact congrArg _ (funext fun replies => funext (ih replies))

@[simp] theorem run_notes (ns : List Note) (w : World σ) :
    (notes ns).run t w = (.ok (), w.noteAll ns) := by
  induction ns generalizing w with
  | nil => rfl
  | cons n rest ih => exact ih (w.note n)

@[simp] theorem run_perform (x : Exchange) (w : World σ) : (perform x).run t w = x.run t w :=
  Ran.andThen_done (x.run t w)

end Program

end HttpSuite
