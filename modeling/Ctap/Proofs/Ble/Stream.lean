import Ctap.Proofs.Ble.Framing

/-!
# Streams of messages over BLE

Messages of any packet sizes come one after the other through one queue of notifications. A reader
takes what is ahead of a header, the header, and as many continuations as the declared length needs,
and leaves the rest of the queue to the next reader. What may be ahead of a header are keepalives,
and for readers that resynchronise also continuations of other messages.

## Main definitions

* `Exchange.takeFrom`: an exchange takes the notifications that it asks for.
* `receiveEach`: what becomes of a queue that is read by one reader after the other.
* `Transmission`: a message, and what is ahead of its header.

## Main results

* `length_le_of_mem_messageFrames`: no frame is longer than the packet size.
* `messages_are_received_in_order`: each reader takes one message and what is ahead of it.
-/

namespace Ctap.Ble

/-! ### Reading from a queue -/

namespace Exchange

/-- The exchange and the queue after the exchange took the notifications that it asked for. -/
def takeFrom : Exchange → List Bytes → Exchange × List Bytes
  | x, [] => (x, [])
  | x, frame :: queue =>
    match Link.Conversation.move x with
    | .receive => takeFrom (received x (.ok frame)) queue
    | _ => (x, frame :: queue)

theorem takeFrom_ended (result : Except Link.Error Bytes) (queue : List Bytes) :
    takeFrom (ended result) queue = (ended result, queue) := by
  cases queue <;> rfl

/-- Frames with which a reader ends are taken, and what is behind them is left. -/
theorem takeFrom_of_feed {reader : Reader} {frames : List Bytes}
    {result : Except Link.Error Bytes} (h : reader.feed frames = .ended result [])
    (queue : List Bytes) : takeFrom (reading reader) (frames ++ queue) = (ended result, queue) := by
  induction frames generalizing reader with
  | nil => cases h
  | cons frame rest ih =>
    obtain ⟨_, _, hcons, hend⟩ := Reader.feed_eq_ended h
    cases hcons
    rcases hend with ⟨cause, hpush, rfl, rfl⟩ | ⟨next, payload, hpush, rfl, rfl⟩ |
      ⟨next, hpush, hmore⟩
    · simp only [List.cons_append, List.nil_append, takeFrom, Link.Conversation.move, received,
        hpush, takeFrom_ended]
    · simp only [List.cons_append, List.nil_append, takeFrom, Link.Conversation.move, received,
        hpush, takeFrom_ended]
    · simpa only [List.cons_append, takeFrom, Link.Conversation.move, received, hpush] using
        ih hmore

end Exchange

/-- The results of `count` readers that take their messages from a queue one after the other, and
what they leave of it. A reader that finds no whole message is the last. -/
def receiveEach (resync : Bool) : Nat → List Bytes → List (Except Link.Error Bytes) × List Bytes
  | 0, queue => ([], queue)
  | count + 1, queue =>
    match (Exchange.receive resync).takeFrom queue with
    | (.ended result, rest) =>
      let later := receiveEach resync count rest
      (result :: later.1, later.2)
    | (_, rest) => ([], rest)

namespace Reader

/-- Frames that are passed over leave a reader as it was. -/
theorem feed_skipped {resync : Bool} {ahead : List Bytes}
    (h : ∀ frame ∈ ahead, skips resync frame = true) (frames : List Bytes) :
    (awaiting resync).feed (ahead ++ frames) = (awaiting resync).feed frames := by
  induction ahead with
  | nil => rfl
  | cons frame ahead ih =>
    have hpush : (awaiting resync).push frame = .ok (awaiting resync, none) := by
      rw [push, if_pos (h frame (List.mem_cons_self ..))]
    rw [List.cons_append, feed_cons_none hpush]
    exact ih fun f hf => h f (List.mem_cons_of_mem _ hf)

end Reader

/-! ### Lengths of frames -/

theorem length_le_of_mem_continuations {seq : UInt8} {pieces : List Bytes} {size : Nat}
    (h : ∀ piece ∈ pieces, piece.length < size) {frame : Bytes}
    (hframe : frame ∈ continuations seq pieces) : frame.length ≤ size := by
  induction pieces generalizing seq with
  | nil => cases hframe
  | cons piece pieces ih =>
    rcases List.mem_cons.1 hframe with rfl | hframe
    · exact h piece (List.mem_cons_self ..)
    · exact ih (fun p hp => h p (List.mem_cons_of_mem _ hp)) hframe

/-- **No frame is longer than the packet size.** -/
theorem length_le_of_mem_messageFrames {command : Command} {payload : Bytes} {size : Nat}
    (hsize : 3 ≤ size) {frame : Bytes} (hframe : frame ∈ messageFrames command payload size) :
    frame.length ≤ size := by
  rcases List.mem_cons.1 hframe with rfl | hframe
  · simp only [List.length_cons, List.length_append, Bytes.length_ofUInt16, List.length_take]
    omega
  · refine length_le_of_mem_continuations (fun piece hpiece => ?_) hframe
    obtain ⟨i, hi⟩ := List.mem_iff_getElem?.1 hpiece
    rw [Bytes.chunks, Bytes.getElem?_pieces] at hi
    split_ifs at hi
    obtain rfl := Option.some.inj hi
    rw [List.length_take]
    omega

/-! ### Streams -/

/-- Whether a frame tells that a request is still being processed, whatever else is in it. -/
def isKeepalive (frame : Bytes) : Bool := frame.head? == some Command.keepalive.toByte

/-- A message on its way to readers, and the notifications ahead of its header. -/
structure Transmission (resync : Bool) where
  ahead : List Bytes
  command : Command
  payload : Bytes
  packetSize : Nat
  /-- Keepalives may be ahead of the header, and continuations if the readers resynchronise. -/
  preceded : ∀ frame ∈ ahead, isKeepalive frame ∨ resync ∧ continuesMessage frame
  hasPayload : command.hasPayload = true
  fits : payload.length ≤ maxMessageSize
  inRange : minPacketSize ≤ packetSize ∧ packetSize ≤ maxPacketSize

namespace Transmission

variable {resync : Bool} (x : Transmission resync)

/-- The frames of the message. -/
def frames : List Bytes := messageFrames x.command x.payload x.packetSize

/-- All notifications: those ahead of the header, and the frames. -/
def notifications : List Bytes := x.ahead ++ x.frames

theorem skips_of_mem_ahead {frame : Bytes} (h : frame ∈ x.ahead) :
    Reader.skips resync frame = true := by
  have hpreceded := x.preceded frame h
  rcases frame with _ | ⟨first, rest⟩
  · simp [isKeepalive, continuesMessage] at hpreceded
  · simpa [Reader.skips, isKeepalive, continuesMessage] using hpreceded

/-- A reader takes the notifications of one message and has its payload. -/
theorem takeFrom (queue : List Bytes) :
    (Exchange.receive resync).takeFrom (x.notifications ++ queue) =
      (.ended (.ok x.payload), queue) := by
  have hsize : 1 < x.packetSize := Nat.lt_of_lt_of_le (by decide) x.inRange.1
  obtain ⟨hframes, hpayload⟩ := Message.frames_ofPayload x.hasPayload x.fits hsize
  apply Exchange.takeFrom_of_feed
  rw [notifications, Reader.feed_skipped fun _ => x.skips_of_mem_ahead, frames, hframes,
    Reader.feed_message, hpayload]

end Transmission

/-- **Messages are received in order.** Every message is cut into frames, none longer than its
packet size. Readers that take messages from the queue one after the other have the payloads in
order, and each of them takes the notifications ahead of a header and the frames of that message:
what is behind them stays in the queue as it was. -/
theorem messages_are_received_in_order {resync : Bool} (stream : List (Transmission resync))
    (behind : List Bytes) :
    (∀ x ∈ stream, packetize x.command x.payload x.packetSize = .ok x.frames ∧
      ∀ frame ∈ x.frames, frame.length ≤ x.packetSize) ∧
    ∀ n ≤ stream.length,
      receiveEach resync n (stream.flatMap Transmission.notifications ++ behind) =
        ((stream.take n).map (.ok ·.payload),
          (stream.drop n).flatMap Transmission.notifications ++ behind) := by
  refine ⟨fun x _ => ⟨?_, fun frame hframe => ?_⟩, fun n hn => ?_⟩
  · exact packetize_eq_ok.2 ⟨x.inRange, x.fits, rfl⟩
  · exact length_le_of_mem_messageFrames (Nat.le_trans (by decide) x.inRange.1) hframe
  · -- Each reader leaves the queue as the next one needs it.
    induction stream generalizing n with
    | nil =>
      obtain rfl := Nat.le_zero.1 hn
      rfl
    | cons x stream ih =>
      cases n with
      | zero => rfl
      | succ n =>
        rw [List.flatMap_cons, List.append_assoc, receiveEach, x.takeFrom]
        simp only [ih n (Nat.le_of_succ_le_succ hn)]
        rfl

/-- A message of two frames behind the end of another one and a keepalive, and an empty message. -/
def interruptedStream : List (Transmission true) :=
  [{ ahead := [[0x05, 9, 9], [Command.keepalive.toByte, 0, 1, 1], [0x06]]
     command := .msg
     payload := Bytes.zeros 20
     packetSize := 20
     preceded := by decide
     hasPayload := rfl
     fits := by decide
     inRange := by decide },
   { ahead := []
     command := .cancel
     payload := []
     packetSize := 512
     preceded := by decide
     hasPayload := rfl
     fits := by decide
     inRange := by decide }]

/-- The first reader takes the message of two frames and what is ahead of it, and leaves the other
message. -/
theorem messages_are_received_behind_orphans : 1 ≤ interruptedStream.length ∧
    (∀ x ∈ interruptedStream, packetize x.command x.payload x.packetSize = .ok x.frames ∧
      ∀ frame ∈ x.frames, frame.length ≤ x.packetSize) ∧
    receiveEach true 1 (interruptedStream.flatMap Transmission.notifications ++ [[7]]) =
      ([.ok (Bytes.zeros 20)], [[Command.cancel.toByte, 0, 0], [7]]) := by
  have hcount : 1 ≤ interruptedStream.length := by decide
  obtain ⟨hframes, hreaders⟩ := messages_are_received_in_order interruptedStream [[7]]
  exact ⟨hcount, hframes, hreaders 1 hcount⟩

end Ctap.Ble
