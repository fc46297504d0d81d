import Ctap.Error
import Ctap.Link.Conversation

/-!
# Authenticators and their callers

An authenticator keeps a state between calls and serves one call at a time. Callers that come while
a call is in progress wait in the order of their arrival. A caller can be dropped while it waits or
works; the state of the authenticator stays as the last link operation left it, and the turn passes
to the next caller.

## Main definitions

* `Authenticator`: how a call begins, what it does on the link, and how it changes the state.
* `Turns`: an authenticator with the caller at work and the callers that wait.
-/

namespace Ctap

open Link (Conversation Move)

/-- Instants and durations, in milliseconds. -/
abbrev Time : Type := Nat

/-- Whoever makes a call. -/
abbrev Caller : Type := Nat

/-- States `σ` of an authenticator whose calls take requests `ρ` and are between two link operations
in a state `κ`. -/
class Authenticator (σ : Type) (ρ κ : outParam Type) where
  engage : σ → ρ → σ × κ
  move : σ → κ → Move (Except Error Bytes)
  /-- Goes on after a packet was sent. -/
  sent : σ → κ → Except Link.Error Unit → σ × κ
  /-- Goes on after a packet was received. -/
  received : σ → κ → Except Link.Error Bytes → σ × κ
  /-- How long a call may take once it has begun. -/
  patience : σ → Option Time
  /-- The packets that ask for the request in progress to be given up. -/
  cancellation : σ → Except Link.Error (List Bytes)

instance (σ ρ κ : Type) [Authenticator σ ρ κ] : Conversation (σ × κ) (Except Error Bytes) where
  move s := Authenticator.move s.1 s.2
  sent s r := Authenticator.sent s.1 s.2 r
  received s r := Authenticator.received s.1 s.2 r

/-- A call at work. -/
structure Working (κ : Type) where
  caller : Caller
  /-- When it got its turn. -/
  since : Time
  call : κ

/-- An authenticator whose callers take turns. -/
structure Turns (σ ρ κ : Type) where
  state : σ
  working : Option (Working κ)
  /-- Callers that have not begun, first come first. While nobody is at work, it is the turn of the
  first of them. -/
  waiting : List (Caller × ρ)

namespace Turns

variable {σ ρ κ : Type}

/-- An authenticator without callers. -/
def idle (state : σ) : Turns σ ρ κ := ⟨state, none, []⟩

/-- A caller arrives. -/
def enter (t : Turns σ ρ κ) (caller : Caller) (request : ρ) : Turns σ ρ κ :=
  { t with waiting := t.waiting ++ [(caller, request)] }

/-- A caller goes, finished or dropped. -/
def leave (t : Turns σ ρ κ) (caller : Caller) : Turns σ ρ κ :=
  { t with
    working := t.working.filter (·.caller != caller)
    waiting := t.waiting.filter (·.1 != caller) }

/-- The call of a caller, if it is the one at work. -/
def callOf? (t : Turns σ ρ κ) (caller : Caller) : Option (Working κ) :=
  t.working.filter (·.caller == caller)

/-- Records where the call at work stands. -/
def update (t : Turns σ ρ κ) (s : σ × κ) : Turns σ ρ κ :=
  { t with state := s.1, working := t.working.map ({ · with call := s.2 }) }

/-- Lets a caller begin if it is its turn. -/
def begin [Authenticator σ ρ κ] (t : Turns σ ρ κ) (now : Time) (caller : Caller) : Turns σ ρ κ :=
  match t.working, t.waiting with
  | none, (first, request) :: waiting =>
    if first = caller then
      let s := Authenticator.engage t.state request
      { state := s.1, working := some ⟨caller, now, s.2⟩, waiting }
    else t
  | _, _ => t

end Turns

end Ctap
