import Ctap.Rehearsal.Run

/-!
# Authenticators on scripted links

A station is an authenticator with its callers and the scripted link on which it works. Its callers
enter, go on whenever they can, and may be dropped at any time.

## Main definitions

* `Station.enter`, `Station.advance`, `Station.drop`: the calls.
* `Station.cancel`: asks for the request in progress to be given up.
* `Station.call`: a single call from beginning to end.
-/

namespace Ctap.Rehearsal

open Link (Conversation Delivery)

/-- An authenticator on a scripted link. -/
structure Station (σ ρ κ : Type) where
  turns : Turns σ ρ κ
  link : ScriptedLink

namespace Station

variable {σ ρ κ : Type} [Authenticator σ ρ κ]

/-- A caller makes a request. -/
def enter (s : Station σ ρ κ) (caller : Caller) (request : ρ) : Station σ ρ κ :=
  { s with turns := s.turns.enter caller request }

/-- A caller is dropped, or has its result. -/
def drop (s : Station σ ρ κ) (caller : Caller) : Station σ ρ κ :=
  { s with turns := s.turns.leave caller }

/-- The instant at which a call that got its turn at `since` runs out of patience. -/
def patienceEnd (s : Station σ ρ κ) (since : Time) : Option Time :=
  (Authenticator.patience s.turns.state).map (since + ·)

/-- The earlier of two instants, one of which may be missing. -/
def earlier : Option Time → Option Time → Option Time
  | none, b => b
  | a, none => a
  | some a, some b => some (min a b)

/-- A caller goes on as far as it can at an instant. `size` bounds the octets of its request. -/
def advance (s : Station σ ρ κ) (size : Nat) (now : Time) (caller : Caller) :
    Progress (Except Error Bytes) × Station σ ρ κ :=
  let turns := s.turns.begin now caller
  match turns.callOf? caller with
  | none => (.waiting none, { s with turns })
  | some w =>
    let r := converse now size s.link (turns.state, w.call)
    let s : Station σ ρ κ := ⟨turns.update r.2.2, r.2.1⟩
    match r.1 with
    | .finished result => (.finished result, s.drop caller)
    | .waiting wake =>
      match s.patienceEnd w.since with
      | none => (.waiting wake, s)
      | some last =>
        if last ≤ now then (.finished (.error .timeout), s.drop caller)
        else (.waiting (earlier wake (some last)), s)

/-- Asks for the request in progress to be given up. -/
def cancel (s : Station σ ρ κ) (now : Time) : Except Error Unit × Station σ ρ κ :=
  let delivery := Delivery.ofPackets (Authenticator.cancellation s.turns.state)
  let r := converse (α := Except Link.Error Unit) now 0 s.link delivery
  let result :=
    match r.1 with
    | .finished result => liftLink result
    | .waiting _ => .ok ()
  (result, { s with link := r.2.1 })

/-- Makes a call at an instant and waits for its end, or until the limit. -/
def call (s : Station σ ρ κ) (size : Nat) (now : Time) (limit : Option Time) (request : ρ) :
    Ending (Except Error Bytes) × Time × Station σ ρ κ :=
  let s := s.enter 0 request
  let r := await (fun now s => s.advance size now 0) limit (2 * s.link.queue.length + 4) now s
  (r.1, r.2.1, r.2.2.drop 0)

end Station

end Ctap.Rehearsal
