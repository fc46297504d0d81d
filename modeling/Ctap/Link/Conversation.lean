import Ctap.Link.Error

/-!
# Conversations on a link

A call that sends packets and receives answers is a state between two link operations. The state
says what it does next; the outcome of that operation gives the next state. Between any two
operations the call can be dropped: its state is forgotten and nothing else happens. Whoever holds
the link decides when an operation completes.

## Main definitions

* `Move`: send a packet, receive one, or stop with a result.
* `Conversation`: the moves of a state and how the state goes on.
* `Delivery`: the conversation that sends some packets and receives nothing.
-/

namespace Ctap.Link

/-- What a conversation does next. -/
inductive Move (α : Type) where
  | send (packet : Bytes)
  | receive
  | stop (result : α)
deriving Repr

/-- The same move with another result. -/
def Move.map {α β : Type} (f : α → β) : Move α → Move β
  | send packet => send packet
  | receive => receive
  | stop result => stop (f result)

/-- States of a call on a link, with results in `α`. The outcome of an operation that the state did
not ask for leaves it unchanged. -/
class Conversation (σ : Type) (α : outParam Type) where
  move : σ → Move α
  /-- The state after a packet was sent, or could not be sent. -/
  sent : σ → Except Error Unit → σ
  /-- The state after a packet was received, or could not be received. -/
  received : σ → Except Error Bytes → σ

/-- Packets to be sent in order; the first failure ends the delivery. -/
inductive Delivery where
  | sending (unsent : List Bytes)
  /-- A packet could not be sent, or there was nothing to send in the first place. -/
  | failed (cause : Error)
deriving Repr

namespace Delivery

/-- The delivery of packets, which may have failed to be cut. -/
def ofPackets : Except Error (List Bytes) → Delivery
  | .ok packets => sending packets
  | .error cause => failed cause

instance : Conversation Delivery (Except Error Unit) where
  move
    | sending (packet :: _) => .send packet
    | sending [] => .stop (.ok ())
    | failed cause => .stop (.error cause)
  sent
    | sending (_ :: rest), .ok () => sending rest
    | sending (_ :: _), .error cause => failed cause
    | d, _ => d
  received d _ := d

end Delivery

end Ctap.Link
