import Ctap.Rehearsal.Station
import Ctap.Rehearsal.Transcript

/-!
# Rehearsing an authenticator

A bench is an authenticator on a scripted link, with a clock. Calls are made one after the other;
between them the script of the link can be changed. Conversations that need no authenticator run on
the same link.

## Main definitions

* `Bench.call`, `Bench.run`: a call of the authenticator, and a conversation on the link.
* `Bench.adjust`: what happens between calls.
-/

namespace Ctap.Rehearsal

open Link (Conversation)

/-- An authenticator on a scripted link, with a clock. -/
structure Bench (σ ρ κ : Type) where
  now : Time
  station : Station σ ρ κ

/-- What happens between calls. -/
inductive Adjustment where
  | queue (items : List Queued)
  | close
  | failSend (after : Nat) (cause : Link.Error)
  | sleep (duration : Time)

namespace Bench

variable {σ ρ κ : Type}

/-- A bench at instant 0. -/
def start (state : σ) (link : ScriptedLink) : Bench σ ρ κ := ⟨0, ⟨.idle state, link⟩⟩

/-- The link. -/
def link (b : Bench σ ρ κ) : ScriptedLink := b.station.link

/-- Replaces the link. -/
def withLink (b : Bench σ ρ κ) (link : ScriptedLink) : Bench σ ρ κ :=
  { b with station := { b.station with link } }

/-- Changes the script, or lets time pass. -/
def adjust (b : Bench σ ρ κ) : Adjustment → Bench σ ρ κ
  | .queue items => b.withLink { b.link with queue := b.link.queue ++ items }
  | .close => b.withLink { b.link with onEmpty := some .disconnected }
  | .failSend after cause => b.withLink { b.link with pendingFailure := some (after, cause) }
  | .sleep duration => { b with now := b.now + duration }

/-- Makes a call, which is dropped after `patience` if there is a limit. `size` bounds the octets of
the request. -/
def call [Authenticator σ ρ κ] (b : Bench σ ρ κ) (size : Nat) (patience : Option Time)
    (request : ρ) : Ending (Except Error Bytes) × Bench σ ρ κ :=
  let r := b.station.call size b.now (patience.map (b.now + ·)) request
  (r.1, ⟨r.2.1, r.2.2⟩)

/-- Runs a conversation on the link. -/
def run {τ α : Type} [Conversation τ α] (b : Bench σ ρ κ) (size : Nat) (patience : Option Time)
    (s : τ) : Ending α × Bench σ ρ κ :=
  let r := runOn (α := α) size b.link b.now (patience.map (b.now + ·)) s
  (r.1, { b with now := r.2.1 }.withLink r.2.2)

/-- Asks for the request in progress to be given up. -/
def cancel [Authenticator σ ρ κ] (b : Bench σ ρ κ) : Except Error Unit × Bench σ ρ κ :=
  let r := b.station.cancel b.now
  (r.1, { b with station := r.2 })

/-- The lines for what was sent in between. -/
def linesSince (name : String) (before after : Bench σ ρ κ) : List String :=
  (newEntries name before.link after.link).map Entry.line

end Bench

end Ctap.Rehearsal
