import Ctap.Ble.Reader
import Mathlib.Tactic.Common

/-!
# What becomes of a message on a BLE connection

A message is a header frame and continuations that are numbered in order, each needed for the
declared length. However it is cut, a reader that is handed its frames one after the other ends with
the last of them and has the payload. The frames that a payload is cut into are such a message.

## Main definitions

* `Reader.Outcome`, `Reader.feed`: what becomes of a reader that is handed frames.
* `Message`, `Answer`: a well-formed message of any framing, and what a request is answered with.

## Main results

* `Reader.feed_message`, `Reader.feed_answer`: the frames of an answer bring its result.
* `Message.frames_ofPayload`: the frames that a payload is cut into are a well-formed message.
-/

namespace Ctap.Ble

/-! ### Handing frames to a reader -/

namespace Reader

/-- What becomes of a reader that is handed frames. -/
inductive Outcome where
  /-- All frames were taken, and the answer is not complete. -/
  | waiting (reader : Reader)
  /-- A frame completed the answer or was refused; the frames after it were not taken. -/
  | ended (result : Except Link.Error Bytes) (rest : List Bytes)

/-- Hands frames to a reader until its answer is complete or a frame is refused. -/
def feed : Reader → List Bytes → Outcome
  | r, [] => .waiting r
  | r, frame :: more =>
    match r.push frame with
    | .error cause => .ended (.error cause) more
    | .ok (next, none) => feed next more
    | .ok (_, some payload) => .ended (.ok payload) more

@[simp] theorem feed_nil (r : Reader) : r.feed [] = .waiting r := rfl

theorem feed_cons_error {r : Reader} {frame : Bytes} {cause : Link.Error}
    (h : r.push frame = .error cause) (more : List Bytes) :
    r.feed (frame :: more) = .ended (.error cause) more := by
  rw [feed, h]

theorem feed_cons_none {r next : Reader} {frame : Bytes} (h : r.push frame = .ok (next, none))
    (more : List Bytes) : r.feed (frame :: more) = next.feed more := by
  rw [feed, h]

theorem feed_cons_some {r next : Reader} {frame payload : Bytes}
    (h : r.push frame = .ok (next, some payload)) (more : List Bytes) :
    r.feed (frame :: more) = .ended (.ok payload) more := by
  rw [feed, h]

/-- A reader that ends with the last of its frames ends with the first if there is no other, and
goes on without a payload otherwise. -/
theorem feed_eq_ended {r : Reader} {frames : List Bytes} {result : Except Link.Error Bytes}
    (h : r.feed frames = .ended result []) : ∃ frame rest, frames = frame :: rest ∧
      ((∃ cause, r.push frame = .error cause ∧ result = .error cause ∧ rest = []) ∨
        (∃ next payload, r.push frame = .ok (next, some payload) ∧ result = .ok payload ∧
          rest = []) ∨
        ∃ next, r.push frame = .ok (next, none) ∧ next.feed rest = .ended result []) := by
  rcases frames with _ | ⟨frame, rest⟩
  · cases h
  · refine ⟨frame, rest, rfl, ?_⟩
    rcases hpush : r.push frame with cause | ⟨next, _ | payload⟩
    · rw [feed_cons_error hpush] at h
      cases h
      exact .inl ⟨cause, rfl, rfl, rfl⟩
    · rw [feed_cons_none hpush] at h
      exact .inr (.inr ⟨next, rfl, h⟩)
    · rw [feed_cons_some hpush] at h
      cases h
      exact .inr (.inl ⟨next, payload, rfl, rfl, rfl⟩)

end Reader

/-! ### Frames -/

/-- Whether a frame begins an answer: it carries a command, and is no keepalive. -/
def opensAnswer : Bytes → Bool
  | [] => false
  | first :: _ => first &&& 0x80 != 0 && first != Command.keepalive.toByte

/-- Whether a frame goes on with a message. -/
def continuesMessage : Bytes → Bool
  | [] => false
  | first :: _ => first &&& 0x80 == 0

theorem nextSeq_has_no_high_bit (seq : UInt8) (h : seq &&& 0x80 = 0) :
    nextSeq seq &&& 0x80 = 0 := by
  obtain ⟨seq⟩ := seq
  revert seq
  decide +kernel

theorem continuesMessage_of_mem {seq : UInt8} (h : seq &&& 0x80 = 0) {pieces : List Bytes}
    {frame : Bytes} (hframe : frame ∈ continuations seq pieces) : continuesMessage frame = true := by
  induction pieces generalizing seq with
  | nil => cases hframe
  | cons piece pieces ih =>
    rcases List.mem_cons.1 hframe with rfl | hframe
    · simp [continuesMessage, h]
    · exact ih (nextSeq_has_no_high_bit seq h) hframe

theorem opensAnswer_of_continuesMessage {frame : Bytes} (h : continuesMessage frame = true) :
    opensAnswer frame = false := by
  rcases frame with _ | ⟨first, rest⟩
  · rfl
  · simp only [continuesMessage, beq_iff_eq] at h
    simp [opensAnswer, h]

theorem continuesMessage_of_opensAnswer {frame : Bytes} (h : opensAnswer frame = true) :
    continuesMessage frame = false := by
  by_contra hcontinues
  rw [opensAnswer_of_continuesMessage (Bool.not_eq_false _ ▸ hcontinues)] at h
  cases h

/-! ### Well-formed messages -/

/-- A well-formed message. Its pieces may be cut in any way, but the last of them is needed. -/
structure Message where
  command : UInt8
  first : Bytes
  pieces : List Bytes
  /-- The first octet tells the header frame from continuations. -/
  isCommand : command &&& 0x80 ≠ 0
  noKeepalive : command ≠ Command.keepalive.toByte
  noError : command ≠ Command.error.toByte
  fits : (first ++ pieces.flatten).length ≤ maxMessageSize
  needed : pieces.getLast? ≠ some []

namespace Message

/-- The payload of a message. -/
def payload (m : Message) : Bytes := m.first ++ m.pieces.flatten

/-- The header frame of a message. -/
def header (m : Message) : Bytes :=
  m.command :: Bytes.ofUInt16 (UInt16.ofNat m.payload.length) ++ m.first

/-- The frames of a message. -/
def frames (m : Message) : List Bytes := m.header :: continuations 0 m.pieces

end Message

/-- What the authenticator answers a request with. -/
inductive Answer where
  | message (m : Message)
  | error (code : UInt8)

namespace Answer

/-- The frames of an answer. -/
def frames : Answer → List Bytes
  | message m => m.frames
  | error code => [Command.error.toByte :: Bytes.ofUInt16 1 ++ [code]]

/-- What the caller of the request is told. -/
def result : Answer → Except Link.Error Bytes
  | message m => .ok m.payload
  | error code => .error (.deviceError code)

end Answer

private theorem flatten_ne_nil {pieces : List Bytes} (hne : pieces ≠ [])
    (hneeded : pieces.getLast? ≠ some []) : 0 < pieces.flatten.length := by
  apply List.length_pos_iff.2
  intro hnil
  rw [List.getLast?_eq_some_getLast hne] at hneeded
  exact hneeded (congrArg some (List.flatten_eq_nil_iff.1 hnil _ (List.getLast_mem hne)))

namespace Reader

/-- A frame that begins an answer is passed over by no reader. -/
theorem skips_of_opensAnswer {frame : Bytes} (h : opensAnswer frame = true) (resync : Bool) :
    skips resync frame = false := by
  rcases frame with _ | ⟨first, rest⟩
  · cases h
  · simp only [opensAnswer, Bool.and_eq_true, bne_iff_ne] at h
    simp [skips, h.1, h.2]

private theorem gathers_of_settle {total : Nat} {data : Bytes} {seq : UInt8} {next : Reader}
    (h : settle total data seq = (next, none)) : next = gathering total data seq := by
  rw [settle] at h
  split_ifs at h <;> cases h
  rfl

/-- Once its answer has begun, a reader gathers it until it is complete. -/
theorem gathers_of_opensAnswer {resync : Bool} {frame : Bytes} {next : Reader}
    (hopens : opensAnswer frame = true)
    (h : (awaiting resync).push frame = .ok (next, none)) :
    ∃ total data seq, next = gathering total data seq := by
  rw [push, skips_of_opensAnswer hopens, if_neg Bool.false_ne_true] at h
  rcases hparse : Header.parse frame with cause | header
  · rw [hparse] at h
    cases h
  · rw [hparse] at h
    exact ⟨_, _, _, gathers_of_settle (Except.ok.inj h)⟩

/-- A reader that gathers an answer goes on gathering until it is complete. -/
theorem gathers_of_gathering {total : Nat} {data : Bytes} {seq : UInt8} {frame : Bytes}
    {next : Reader} (h : (gathering total data seq).push frame = .ok (next, none)) :
    ∃ total data seq, next = gathering total data seq := by
  rcases frame with _ | ⟨actual, more⟩
  · cases h
  · rw [push] at h
    split_ifs at h
    exact ⟨_, _, _, gathers_of_settle (Except.ok.inj h)⟩

theorem push_continuation (total : Nat) (data : Bytes) (seq : UInt8) (piece : Bytes) :
    (gathering total data seq).push (seq :: piece) =
      .ok (settle total (data ++ piece.take (total - data.length)) (nextSeq seq)) := by
  simp only [push, if_true]

/-- The continuations that are needed complete the answer with the last of them. -/
theorem feed_continuations {pieces : List Bytes} (hne : pieces ≠ [])
    (hneeded : pieces.getLast? ≠ some []) (data : Bytes) (seq : UInt8) :
    (gathering (data ++ pieces.flatten).length data seq).feed (continuations seq pieces) =
      .ended (.ok (data ++ pieces.flatten)) [] := by
  induction pieces generalizing data seq with
  | nil => exact absurd rfl hne
  | cons piece rest ih =>
    have hpush := push_continuation (data ++ (piece :: rest).flatten).length data seq piece
    have htake : piece.take ((data ++ (piece :: rest).flatten).length - data.length) = piece := by
      apply List.take_of_length_le
      simp only [List.length_append, List.flatten_cons]
      omega
    rw [htake] at hpush
    rcases hrest : rest with _ | ⟨next, more⟩
    · subst hrest
      have hlast : settle (data ++ [piece].flatten).length (data ++ piece) (nextSeq seq) =
          (awaiting false, some (data ++ piece)) := by
        simp [settle]
      rw [hlast] at hpush
      rw [continuations, feed_cons_some hpush]
      simp [continuations]
    · rw [← hrest]
      have hrestne : rest ≠ [] := by simp [hrest]
      have hlast : rest.getLast? ≠ some [] := by
        rwa [hrest, List.getLast?_cons_cons, ← hrest] at hneeded
      have hpos := flatten_ne_nil hrestne hlast
      have hmore : settle (data ++ (piece :: rest).flatten).length (data ++ piece) (nextSeq seq) =
          (gathering (data ++ (piece :: rest).flatten).length (data ++ piece) (nextSeq seq),
            none) := by
        rw [settle, if_pos]
        simp only [List.length_append, List.flatten_cons]
        omega
      rw [hmore] at hpush
      rw [continuations, feed_cons_none hpush]
      have hall : data ++ (piece :: rest).flatten = (data ++ piece) ++ rest.flatten := by
        rw [List.flatten_cons, List.append_assoc]
      rw [hall]
      exact ih hrestne hlast (data ++ piece) (nextSeq seq)

/-- The header frame of a message is taken by a reader that awaits it. -/
theorem push_header (m : Message) (resync : Bool) :
    (awaiting resync).push m.header = .ok (settle m.payload.length m.first 0) := by
  have hskips : skips resync m.header = false := by
    simp [skips, Message.header, m.noKeepalive, m.isCommand]
  have hlength : (UInt16.ofNat m.payload.length).toNat = m.payload.length := by
    have := m.fits
    rw [UInt16.toNat_ofNat']
    simp only [Message.payload, maxMessageSize] at this ⊢
    omega
  have hparse : Header.parse m.header = .ok ⟨m.command, m.payload.length, m.first⟩ := by
    simp only [Message.header, Bytes.ofUInt16, List.cons_append, List.nil_append, Header.parse,
      if_neg m.isCommand, if_neg m.noError, Bytes.toUInt16_ofUInt16, hlength]
  have htake : m.first.take m.payload.length = m.first := by
    apply List.take_of_length_le
    simp only [Message.payload, List.length_append]
    omega
  simp only [push, hskips, Bool.false_eq_true, if_false, hparse, htake]

/-- **The frames of a message bring its payload**, however it is cut. -/
theorem feed_message (m : Message) (resync : Bool) :
    (awaiting resync).feed m.frames = .ended (.ok m.payload) [] := by
  have hpush := push_header m resync
  by_cases hnil : m.pieces = []
  · have hall : m.payload = m.first := by
      rw [Message.payload, hnil, List.flatten_nil, List.append_nil]
    rw [hall, settle, if_neg (Nat.lt_irrefl _)] at hpush
    rw [Message.frames, feed_cons_some hpush, hnil, hall, continuations]
  · have hpos := flatten_ne_nil hnil m.needed
    have hshort : m.first.length < m.payload.length := by
      rw [Message.payload, List.length_append]
      omega
    rw [settle, if_pos hshort] at hpush
    rw [Message.frames, feed_cons_none hpush]
    exact feed_continuations hnil m.needed m.first 0

/-- **The frames of an answer bring its result.** -/
theorem feed_answer (a : Answer) (resync : Bool) :
    (awaiting resync).feed a.frames = .ended a.result [] := by
  cases a with
  | message m => exact feed_message m resync
  | error code =>
    apply feed_cons_error
    cases resync <;> rfl

end Reader

namespace Answer

/-- An answer is one frame that begins it and frames that go on with it. -/
theorem frames_eq_cons (a : Answer) : ∃ header rest, a.frames = header :: rest ∧
    opensAnswer header = true ∧ ∀ frame ∈ rest, continuesMessage frame = true := by
  cases a with
  | message m =>
    refine ⟨m.header, continuations 0 m.pieces, rfl, ?_, ?_⟩
    · simp [opensAnswer, Message.header, m.isCommand, m.noKeepalive]
    · intro frame hframe
      exact continuesMessage_of_mem rfl hframe
  | error code => exact ⟨_, [], rfl, rfl, by simp⟩

/-- The first frame of an answer begins it, and the others go on with it. -/
theorem frames_of_cons {a : Answer} {header : Bytes} {rest : List Bytes}
    (h : a.frames = header :: rest) :
    opensAnswer header = true ∧ ∀ frame ∈ rest, continuesMessage frame = true := by
  obtain ⟨header', rest', hframes, hheader, hrest⟩ := a.frames_eq_cons
  rw [h] at hframes
  cases hframes
  exact ⟨hheader, hrest⟩

end Answer

/-! ### Cutting payloads -/

/-- A payload can be cut if the packet size is in range and the length field can name its length. -/
theorem packetize_eq_ok {command : Command} {payload : Bytes} {size : Nat} {frames : List Bytes} :
    packetize command payload size = .ok frames ↔
      (minPacketSize ≤ size ∧ size ≤ maxPacketSize) ∧ payload.length ≤ maxMessageSize ∧
        frames = messageFrames command payload size := by
  rw [packetize, validatePacketSize]
  by_cases hsize : minPacketSize ≤ size ∧ size ≤ maxPacketSize
  · by_cases hlong : maxMessageSize < payload.length
    · simp [hsize, hlong, Nat.not_le.2 hlong]
    · simp [hsize, hlong, Nat.not_lt.1 hlong, eq_comm]
  · simp [hsize]

/-- The commands that requests are made with. -/
def Command.isRequest : Command → Bool
  | .ping | .msg => true
  | _ => false

/-- The commands of messages that have a payload of their own: all but those that report. -/
def Command.hasPayload : Command → Bool
  | .ping | .msg | .cancel => true
  | _ => false

theorem Command.hasPayload_of_isRequest {command : Command} (h : command.isRequest = true) :
    command.hasPayload = true := by
  cases command <;> revert h <;> decide

namespace Message

/-- A payload cut into frames, as a message. -/
def ofPayload {command : Command} (hcommand : command.hasPayload = true) {payload : Bytes}
    (hpayload : payload.length ≤ maxMessageSize) {size : Nat} (hsize : 1 < size) : Message where
  command := command.toByte
  first := payload.take (size - 3)
  pieces := Bytes.chunks (size - 1) (payload.drop (size - 3))
  isCommand := by cases command <;> decide
  noKeepalive := by cases command <;> revert hcommand <;> decide
  noError := by cases command <;> revert hcommand <;> decide
  fits := by rwa [Bytes.flatten_chunks (by omega), List.take_append_drop]
  needed := by
    intro hlast
    exact Bytes.ne_nil_of_mem_chunks (by omega) (List.mem_of_getLast? hlast) rfl

/-- The frames that a payload is cut into are a message with this command and payload. -/
theorem frames_ofPayload {command : Command} (hcommand : command.hasPayload = true)
    {payload : Bytes} (hpayload : payload.length ≤ maxMessageSize) {size : Nat} (hsize : 1 < size) :
    messageFrames command payload size = (ofPayload hcommand hpayload hsize).frames ∧
      (ofPayload hcommand hpayload hsize).payload = payload := by
  have hall : (ofPayload hcommand hpayload hsize).payload = payload := by
    simp only [Message.payload, ofPayload]
    rw [Bytes.flatten_chunks (by omega), List.take_append_drop]
  refine ⟨?_, hall⟩
  rw [frames, header, hall]
  rfl

end Message

end Ctap.Ble
