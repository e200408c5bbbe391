import HttpSuite.Http.Message

/-!
# The world of a run

A transport answers a request after a latency; the engine sees time in whole milliseconds.  What a
run sends, prints, logs and asks is kept in order as its events.  A run can break off for good, and
then nothing that was to follow is carried out.
-/

namespace HttpSuite

/-- What comes back for a request: a response or an error. -/
abbrev Reply := Except TransportError Response

/-- A reply and the milliseconds until it arrives. -/
structure Delivery where
  latency : Nat
  reply : Reply

/-- A way to send requests, with a state that each send may change. -/
structure Transport (σ : Type) where
  name : String
  send : Request → SendOptions → σ → Delivery × σ

inductive LogLevel where
  | info
  | warn
  | error
deriving DecidableEq

/-- What a run tells the outside. -/
inductive Note where
  | line (text : String)
  | log (level : LogLevel) (text : String)
  /-- A prompt that waits for the user. -/
  | pause (message : String)

inductive Event where
  | sent (request : Request) (options : SendOptions) (time : Nat)
  | noted (note : Note) (time : Nat)

/-- The time in milliseconds, the state of the transport and the events so far, last first. -/
structure World (σ : Type) where
  now : Nat
  transport : σ
  history : List Event

namespace World

variable {σ : Type}

def start (transport : σ) : World σ := ⟨0, transport, []⟩

def events (w : World σ) : List Event := w.history.reverse

def note (w : World σ) (n : Note) : World σ := { w with history := .noted n w.now :: w.history }

def wait (w : World σ) (milliseconds : Nat) : World σ := { w with now := w.now + milliseconds }

/-- Sends a request now. -/
def send (t : Transport σ) (w : World σ) (request : Request) (options : SendOptions) :
    Delivery × World σ :=
  let (delivery, state) := t.send request options w.transport
  (delivery, ⟨w.now, state, .sent request options w.now :: w.history⟩)

end World

/-- Why a run breaks off. -/
inductive Break where
  /-- The number of failed attempts does not fit its counter. -/
  | counter
  /-- The next pause between two attempts is no duration. -/
  | pause
deriving DecidableEq

/-- What was carried out in a world: what it has come to, or why it broke off, and the world
then. -/
abbrev Ran (σ α : Type) := Except Break α × World σ

/-- Goes on with what was carried out, unless it broke off. -/
def Ran.andThen {σ α β : Type} (r : Ran σ α) (f : α → World σ → Ran σ β) : Ran σ β :=
  match r with
  | (.ok a, w) => f a w
  | (.error b, w) => (.error b, w)

/-- The delivery under the options of a send: a timeout is that of the request. -/
def Delivery.under (d : Delivery) (options : SendOptions) : Delivery :=
  match d.reply with
  | .error (.timeout _) => { d with reply := .error (.timeout options.timeout) }
  | _ => d

/-- The replies of a script: a queue in send order, then a reply by address, then a default. -/
structure Script where
  queue : List Delivery
  routes : List (String × Delivery)
  fallback : Delivery

/-- A transport that follows a script. -/
def Transport.scripted (name : String) : Transport Script where
  name := name
  send := fun request options script =>
    match script.queue with
    | delivery :: rest => (delivery.under options, { script with queue := rest })
    | [] =>
      let found := script.routes.find? fun r => r.1 == request.url
      (((found.map (·.2)).getD script.fallback).under options, script)

end HttpSuite
