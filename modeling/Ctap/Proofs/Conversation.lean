import Ctap.Link.Conversation

/-!
# Conversations from a queue

A conversation sends its packets on a link that takes all of them, and receives from a queue
whatever comes next. The queue may be closed at its end: then a receive fails there, and otherwise
it waits for ever. What is sent, the result and what is left of the queue are determined by that.

## Main definitions

* `Concludes`, `Ends`: a conversation from a state to its end, which is the only one.

## Main results

* `Concludes.unique`: how a conversation ends is determined.
-/

namespace Ctap.Link

variable {σ α : Type} [Conversation σ α] {closed : Option Error} {s : σ}
  {queue sent sent' rest rest' : List Bytes} {result result' : α}

/-- A conversation from a state to its end: the packets that are sent, the result, and what is left
of the queue. A queue that is closed fails at its end. -/
inductive Concludes (closed : Option Error) :
    σ → List Bytes → List Bytes → α → List Bytes → Prop where
  | stop {s : σ} {queue : List Bytes} {result : α} (move : Conversation.move s = .stop result) :
    Concludes closed s queue [] result queue
  | send {s : σ} {packet : Bytes} {queue sent rest : List Bytes} {result : α}
    (move : Conversation.move s = .send packet)
    (more : Concludes closed (Conversation.sent s (.ok ())) queue sent result rest) :
    Concludes closed s queue (packet :: sent) result rest
  | receive {s : σ} {packet : Bytes} {queue sent rest : List Bytes} {result : α}
    (move : Conversation.move s = .receive)
    (more : Concludes closed (Conversation.received s (.ok packet)) queue sent result rest) :
    Concludes closed s (packet :: queue) sent result rest
  | lose {s : σ} {cause : Error} {sent rest : List Bytes} {result : α}
    (move : Conversation.move s = .receive) (isClosed : closed = some cause)
    (more : Concludes closed (Conversation.received s (.error cause)) [] sent result rest) :
    Concludes closed s [] sent result rest

/-- **How a conversation ends is determined** by the queue. -/
theorem Concludes.unique (h : Concludes closed s queue sent result rest)
    (h' : Concludes closed s queue sent' result' rest') :
    sent' = sent ∧ result' = result ∧ rest' = rest := by
  induction h generalizing sent' with
  | stop move =>
    cases h' with
    | stop move' => exact ⟨rfl, Move.stop.inj (move'.symm.trans move), rfl⟩
    | send move' | receive move' | lose move' => cases move.symm.trans move'
  | send move more ih =>
    cases h' with
    | send move' more' =>
      cases move.symm.trans move'
      obtain ⟨rfl, rfl, rfl⟩ := ih more'
      exact ⟨rfl, rfl, rfl⟩
    | stop move' | receive move' | lose move' => cases move.symm.trans move'
  | receive move more ih =>
    cases h' with
    | receive move' more' => exact ih more'
    | stop move' | send move' => cases move.symm.trans move'
  | lose move isClosed more ih =>
    cases h' with
    | lose move' isClosed' more' =>
      cases isClosed.symm.trans isClosed'
      exact ih more'
    | stop move' | send move' => cases move.symm.trans move'

/-- A conversation ends in this way, and in no other. -/
def Ends (closed : Option Error) (s : σ) (queue sent : List Bytes) (result : α)
    (rest : List Bytes) : Prop :=
  ∀ sent' result' rest', Concludes closed s queue sent' result' rest' ↔
    sent' = sent ∧ result' = result ∧ rest' = rest

theorem Concludes.ends (h : Concludes closed s queue sent result rest) :
    Ends closed s queue sent result rest := by
  refine fun sent' result' rest' => ⟨h.unique, ?_⟩
  rintro ⟨rfl, rfl, rfl⟩
  exact h

end Ctap.Link
