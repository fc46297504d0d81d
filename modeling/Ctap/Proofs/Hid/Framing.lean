import Ctap.Hid.Exchange
import Mathlib.Tactic.Common

/-!
# What becomes of a message on a HID link

A packet that was written is read back as the same packet, with the filling zeros at the end of its
data. A reader is handed packets one after the other until one completes a message or is refused;
`Reader.feed` says which, and which packets are left. The packets of a message complete it with the
last one and bring its payload, whatever is queued behind them.

## Main definitions

* `Reader.Outcome`, `Reader.feed`: what becomes of a reader that is handed packets.

## Main results

* `Packet.decode_encode_initial`, `Packet.decode_encode_continuation`: packets are read back.
* `Reader.feed_append`: packets can be handed over in two portions.
* `Reader.feed_message`: the packets of a message bring its payload.
-/

namespace Ctap

namespace Bytes

/-- The first `n` octets of a string that is filled up with zeros, if it has at least so many. -/
theorem take_append_zeros {n k : Nat} {b : Bytes} (h : n ≤ b.length) :
    (b ++ zeros k).take n = b.take n := by
  rw [List.take_append_of_le_length h]

end Bytes

namespace Hid

/-! ### Packets are read back -/

namespace Packet

private theorem tagged_command (command : UInt8) (h : command &&& 0x80 = 0) :
    (command ||| 0x80) &&& 0x80 ≠ 0 ∧ (command ||| 0x80) &&& 0x7F = command := by
  obtain ⟨command⟩ := command
  revert command
  decide +kernel

/-- A command without the type bit is what the type bit can be taken off without a change. -/
theorem masked_command (command : UInt8) (h : command &&& 0x80 = 0) :
    command &&& 0x7F = command := by
  obtain ⟨command⟩ := command
  revert command
  decide +kernel

theorem small_has_no_type_bit (seq : UInt8) (h : seq.toNat < 128) : seq &&& 0x80 = 0 := by
  obtain ⟨seq⟩ := seq
  revert seq
  decide +kernel

theorem toNat_lt_of_no_type_bit {seq : UInt8} (h : seq &&& 0x80 = 0) : seq.toNat < 128 := by
  obtain ⟨seq⟩ := seq
  revert seq
  decide +kernel

/-- An initial packet is read back with the zeros that fill it. -/
theorem decode_encode_initial (size : Nat) (channel : ChannelId) {command : UInt8}
    (h : command &&& 0x80 = 0) (length : UInt16) (data : Bytes) :
    decode (encode size (.initial channel command length data)) =
      .ok (.initial channel command length
        (data ++ Bytes.zeros (size - (initialHeaderSize + data.length)))) := by
  obtain ⟨htag, hcommand⟩ := tagged_command command h
  simp only [encode, Bytes.padTo, Bytes.ofUInt32, Bytes.ofUInt16, List.cons_append,
    List.nil_append, List.length_cons]
  simp only [decode, if_neg htag, hcommand, Bytes.toUInt32_ofUInt32, Bytes.toUInt16_ofUInt16,
    initialHeaderSize, Except.ok.injEq, initial.injEq, true_and]
  rw [show data.length + 1 + 1 + 1 + 1 + 1 + 1 + 1 = 7 + data.length by omega]

/-- A continuation is read back with the zeros that fill it. -/
theorem decode_encode_continuation (size : Nat) (channel : ChannelId) {seq : UInt8}
    (h : seq &&& 0x80 = 0) (data : Bytes) :
    decode (encode size (.continuation channel seq data)) =
      .ok (.continuation channel seq
        (data ++ Bytes.zeros (size - (continuationHeaderSize + data.length)))) := by
  simp only [encode, Bytes.padTo, Bytes.ofUInt32, List.cons_append, List.nil_append,
    List.length_cons]
  simp only [decode, if_pos h, Bytes.toUInt32_ofUInt32, continuationHeaderSize, Except.ok.injEq,
    continuation.injEq, true_and]
  rw [show data.length + 1 + 1 + 1 + 1 + 1 = 5 + data.length by omega]

/-- A packet whose header and data fit is as long as the packets of the link. -/
theorem length_encode_initial {size : Nat} (channel : ChannelId) (command : UInt8)
    (length : UInt16) {data : Bytes} (h : initialHeaderSize + data.length ≤ size) :
    (encode size (.initial channel command length data)).length = size := by
  simp only [initialHeaderSize] at h
  simp only [encode, Bytes.length_padTo, List.length_append, List.length_cons,
    Bytes.length_ofUInt32, Bytes.length_ofUInt16]
  omega

end Packet

/-! ### Answers to a handshake are read back -/

namespace Welcome

private theorem eq_eight {b : Bytes} (h : b.length = 8) :
    ∃ n₀ n₁ n₂ n₃ n₄ n₅ n₆ n₇, b = [n₀, n₁, n₂, n₃, n₄, n₅, n₆, n₇] := by
  rcases b with _ | ⟨n₀, _ | ⟨n₁, _ | ⟨n₂, _ | ⟨n₃, _ | ⟨n₄, _ | ⟨n₅, _ | ⟨n₆, _ | ⟨n₇, _ | _⟩⟩⟩⟩⟩⟩⟩⟩ <;>
    simp_all

private theorem eq_three {b : Bytes} (h : b.length = 3) : ∃ v₀ v₁ v₂, b = [v₀, v₁, v₂] := by
  rcases b with _ | ⟨v₀, _ | ⟨v₁, _ | ⟨v₂, _ | _⟩⟩⟩ <;> simp_all

/-- An answer to a handshake whose parts have their lengths is read back. -/
theorem decode_encode {w : Welcome} (hnonce : w.nonce.length = nonceSize)
    (hversion : w.deviceVersion.length = 3) : decode w.encode = .ok w := by
  obtain ⟨n₀, n₁, n₂, n₃, n₄, n₅, n₆, n₇, hnonce⟩ := eq_eight hnonce
  obtain ⟨v₀, v₁, v₂, hversion⟩ := eq_three hversion
  simp only [encode, hnonce, hversion, Bytes.ofUInt32, List.cons_append, List.nil_append, decode,
    Bytes.toUInt32_ofUInt32]
  rw [← hnonce, ← hversion]

theorem length_encode {w : Welcome} (hnonce : w.nonce.length = nonceSize)
    (hversion : w.deviceVersion.length = 3) : w.encode.length = handshakeSize := by
  simp only [encode, List.length_append, hnonce, hversion, Bytes.length_ofUInt32]
  rfl

end Welcome

theorem handshakeSize_le {size : Nat} (h : initialHeaderSize < size) :
    handshakeSize ≤ maxPayload size := by
  simp only [initialHeaderSize, handshakeSize, maxPayload, continuationHeaderSize] at h ⊢
  omega

/-! ### Handing packets to a reader -/

namespace Reader

/-- What becomes of a reader that is handed packets. -/
inductive Outcome where
  /-- All packets were taken, and the message is not complete. -/
  | waiting (reader : Reader)
  /-- A packet completed the message; the packets after it were not taken. -/
  | gave (payload : Bytes) (rest : List Bytes)
  | failed (cause : Link.Error)
deriving DecidableEq

/-- Hands packets to a reader until one completes its message or is refused. -/
def feed : Reader → List Bytes → Outcome
  | r, [] => .waiting r
  | r, raw :: more =>
    match r.push raw with
    | .error cause => .failed cause
    | .ok (next, none) => feed next more
    | .ok (_, some payload) => .gave payload more

@[simp] theorem feed_nil (r : Reader) : r.feed [] = .waiting r := rfl

theorem feed_cons_error {r : Reader} {raw : Bytes} {cause : Link.Error}
    (h : r.push raw = .error cause) (more : List Bytes) : r.feed (raw :: more) = .failed cause := by
  rw [feed, h]

theorem feed_cons_none {r next : Reader} {raw : Bytes} (h : r.push raw = .ok (next, none))
    (more : List Bytes) : r.feed (raw :: more) = next.feed more := by
  rw [feed, h]

theorem feed_cons_some {r next : Reader} {raw payload : Bytes}
    (h : r.push raw = .ok (next, some payload)) (more : List Bytes) :
    r.feed (raw :: more) = .gave payload more := by
  rw [feed, h]

/-- A reader that gives a payload with the last of its packets does so with the first if there is
no other, and goes on otherwise. -/
theorem feed_eq_gave {r : Reader} {packets : List Bytes} {payload : Bytes}
    (h : r.feed packets = .gave payload []) : ∃ raw rest, packets = raw :: rest ∧
      ((∃ next, r.push raw = .ok (next, some payload) ∧ rest = []) ∨
        ∃ next, r.push raw = .ok (next, none) ∧ next.feed rest = .gave payload []) := by
  rcases packets with _ | ⟨raw, rest⟩
  · cases h
  · refine ⟨raw, rest, rfl, ?_⟩
    rcases hpush : r.push raw with cause | ⟨next, _ | payload⟩
    · rw [feed_cons_error hpush] at h
      cases h
    · rw [feed_cons_none hpush] at h
      exact .inr ⟨next, rfl, h⟩
    · rw [feed_cons_some hpush] at h
      cases h
      exact .inl ⟨next, rfl, rfl⟩

/-- What becomes of the reader when more packets follow. -/
def Outcome.andThen : Outcome → List Bytes → Outcome
  | .waiting r, more => r.feed more
  | .gave payload rest, more => .gave payload (rest ++ more)
  | .failed cause, _ => .failed cause

/-- Packets can be handed over in two portions. -/
theorem feed_append (r : Reader) (first more : List Bytes) :
    r.feed (first ++ more) = (r.feed first).andThen more := by
  induction first generalizing r with
  | nil => rfl
  | cons raw first ih =>
    rw [List.cons_append]
    rcases h : r.push raw with cause | ⟨next, _ | payload⟩
    · rw [feed_cons_error h, feed_cons_error h, Outcome.andThen]
    · rw [feed_cons_none h, feed_cons_none h, ih]
    · rw [feed_cons_some h, feed_cons_some h, Outcome.andThen]

/-- A reader that has taken part of a message, declared to have `total` octets. -/
def gathering (channel : ChannelId) (expected : UInt8) (selective : Bool) (total : Nat)
    (data : Bytes) (seq : UInt8) : Reader :=
  ⟨⟨channel, expected, some ⟨total, data, seq⟩⟩, selective⟩

/-- The next continuation is taken; the message is complete if nothing is missing after it. -/
theorem push_continuation {channel : ChannelId} (expected : UInt8) (selective : Bool) (total : Nat)
    (data : Bytes) {seq : UInt8} {raw piece : Bytes}
    (h : Packet.decode raw = .ok (.continuation channel seq piece)) :
    (gathering channel expected selective total data seq).push raw =
      let all := data ++ piece.take (total - data.length)
      if all.length = total then
        .ok (⟨⟨channel, expected, none⟩, selective⟩, some all)
      else .ok (gathering channel expected selective total all (seq + 1), none) := by
  have hstarted : (gathering channel expected selective total data seq).reassembler.isStarted :=
    rfl
  simp only [push, hstarted, Bool.not_true, Bool.and_false, Bool.false_eq_true, if_false, accept]
  simp only [gathering, Reassembler.push, h, Packet.channel, if_true, Reassembler.extend,
    Reassembler.settle]
  split_ifs <;> rfl

/-- Continuations that hold what is missing complete the message with the last of them. -/
theorem feed_continuations {size : Nat} (hsize : continuationHeaderSize < size)
    (channel : ChannelId) (expected : UInt8) (selective : Bool) (more : List Bytes)
    (missing data : Bytes) (seq : UInt8) (hmissing : missing ≠ [])
    (hseq : seq.toNat +
      (Bytes.chunks (size - continuationHeaderSize) missing).length ≤ 128) :
    (gathering channel expected selective (data.length + missing.length) data seq).feed
        ((continuations channel seq
            (Bytes.chunks (size - continuationHeaderSize) missing)).map (Packet.encode size) ++
          more) =
      .gave (data ++ missing) more := by
  have hk : 0 < size - continuationHeaderSize := by omega
  -- Every continuation takes a piece off what is missing.
  induction hn : missing.length using Nat.strongRecOn generalizing missing data seq with
  | ind n ih =>
    subst hn
    rw [Bytes.chunks_eq_cons hk hmissing] at hseq ⊢
    set k := size - continuationHeaderSize with hkdef
    have htype : seq &&& 0x80 = 0 := Packet.small_has_no_type_bit seq (by
      rw [List.length_cons] at hseq
      omega)
    have hdecode := Packet.decode_encode_continuation size channel htype (missing.take k)
    simp only [continuations, List.map_cons, List.cons_append]
    have hpush := push_continuation expected selective (data.length + missing.length) data hdecode
    by_cases hlast : missing.length ≤ k
    · have hall : data ++ (missing.take k ++
          Bytes.zeros (size - (continuationHeaderSize + (missing.take k).length))).take
            (data.length + missing.length - data.length) = data ++ missing := by
        rw [Nat.add_sub_cancel_left, List.take_of_length_le hlast,
          Bytes.take_append_zeros (Nat.le_refl _), List.take_length]
      have hnil : Bytes.chunks k (missing.drop k) = [] := by
        rw [List.drop_eq_nil_of_le hlast, Bytes.chunks_nil hk]
      simp only [hall, List.length_append, if_true] at hpush
      rw [feed_cons_some hpush, hnil]
      rfl
    · have htake : (missing.take k).length = k := by
        rw [List.length_take]
        omega
      have hall : data ++ (missing.take k ++
          Bytes.zeros (size - (continuationHeaderSize + (missing.take k).length))).take
            (data.length + missing.length - data.length) = data ++ missing.take k := by
        have hfull : size - (continuationHeaderSize + k) = 0 := by omega
        rw [htake, hfull, Nat.add_sub_cancel_left]
        simp only [Bytes.zeros, List.replicate_zero, List.append_nil]
        rw [List.take_of_length_le (by omega)]
      have hshort : ¬ (data ++ missing.take k).length = data.length + missing.length := by
        rw [List.length_append, htake]
        omega
      simp only [hall, if_neg hshort] at hpush
      have hrest : missing.drop k ≠ [] := by
        rw [ne_eq, List.drop_eq_nil_iff]
        omega
      have hnext : (seq + 1).toNat + (Bytes.chunks k (missing.drop k)).length ≤ 128 := by
        rw [List.length_cons] at hseq
        rw [UInt8.toNat_add]
        simp only [UInt8.reduceToNat]
        omega
      have hlen : (data ++ missing.take k).length + (missing.drop k).length =
          data.length + missing.length := by
        rw [List.length_append, htake, List.length_drop]
        omega
      have hrec := ih (missing.drop k).length (by rw [List.length_drop]; omega) (missing.drop k)
        (data ++ missing.take k) (seq + 1) hrest hnext rfl
      rw [hlen, List.append_assoc, List.take_append_drop] at hrec
      rw [feed_cons_none hpush, hrec]

/-- A reader that awaits a message. -/
def awaiting (channel : ChannelId) (command : UInt8) (selective : Bool) : Reader :=
  ⟨Reassembler.await channel command, selective⟩

/-- The initial packet of the message that is awaited is taken; the message is complete if it holds
the whole payload. -/
theorem push_initial {channel : ChannelId} {command : UInt8} (selective : Bool) {length : UInt16}
    {raw data : Bytes} (h : Packet.decode raw = .ok (.initial channel command length data))
    (hcommand : command &&& 0x7F = command) (hfits : length.toNat ≤ maxPayload raw.length)
    (hselective : selective = true → command = Command.init.toByte) :
    (awaiting channel command selective).push raw =
      if (data.take length.toNat).length = length.toNat then
        .ok (awaiting channel command selective, some (data.take length.toNat))
      else .ok (gathering channel command selective length.toNat (data.take length.toNat) 0,
        none) := by
  have haccept : (awaiting channel command selective).accept raw =
      if (data.take length.toNat).length = length.toNat then
        .ok (awaiting channel command selective, some (data.take length.toNat))
      else .ok (gathering channel command selective length.toNat (data.take length.toNat) 0,
        none) := by
    simp only [accept, awaiting, Reassembler.push, Reassembler.await, h, Packet.channel, if_true,
      Reassembler.begin, hcommand, if_neg (Nat.not_lt.2 hfits), Reassembler.settle]
    split_ifs <;> rfl
  cases selective with
  | false => exact haccept
  | true =>
    have hopens : opensHandshake channel (.initial channel command length data) = true := by
      simp [opensHandshake, hselective rfl]
    rw [push, ← haccept]
    simp only [awaiting, Reassembler.isStarted, Reassembler.await, h, hopens, if_true]
    rfl

/-- A keepalive is passed over by a reader that awaits another message. -/
theorem push_keepalive {channel : ChannelId} {command : UInt8} {length : UInt16} {raw data : Bytes}
    (h : Packet.decode raw = .ok (.initial channel Command.keepalive.toByte length data))
    (hcommand : Command.keepalive.toByte ≠ command &&& 0x7F) :
    (awaiting channel command false).push raw = .ok (awaiting channel command false, none) := by
  simp only [push, awaiting, Bool.false_and, Bool.false_eq_true, if_false, accept, Reassembler.push,
    Reassembler.await, h, Packet.channel, if_true, Reassembler.begin, if_neg hcommand]

/-- An error message ends what awaits another message. -/
theorem push_error {channel : ChannelId} {command : UInt8} {selective : Bool} {length : UInt16}
    {raw data : Bytes} (h : Packet.decode raw = .ok (.initial channel Command.error.toByte length data))
    (hcommand : Command.error.toByte ≠ command &&& 0x7F) :
    (awaiting channel command selective).push raw =
      .error (.deviceError (data.head?.getD ErrorCode.other.toByte)) := by
  have hother : Command.error.toByte ≠ Command.keepalive.toByte := by decide
  have haccept : (awaiting channel command selective).accept raw =
      .error (.deviceError (data.head?.getD ErrorCode.other.toByte)) := by
    simp only [accept, awaiting, Reassembler.push, Reassembler.await, h, Packet.channel, if_true,
      Reassembler.begin, if_neg hcommand, if_neg hother]
  cases selective with
  | false => exact haccept
  | true =>
    have hopens : opensHandshake channel (.initial channel Command.error.toByte length data) =
        true := by
      simp [opensHandshake]
    rw [push, ← haccept]
    simp only [awaiting, Reassembler.isStarted, Reassembler.await, h, hopens, if_true]
    rfl

private theorem channel_settle (r : Reassembler) (g : Gathered) :
    (r.settle g).1.channel = r.channel := by
  rw [Reassembler.settle]
  split_ifs <;> rfl

private theorem channel_of_reassemble {r next : Reassembler} {raw : Bytes} {payload : Option Bytes}
    (h : r.push raw = .ok (next, payload)) : next.channel = r.channel := by
  have hsettle {g : Gathered} (hg : Except.ok (r.settle g) = (.ok (next, payload) :
      Except Link.Error (Reassembler × Option Bytes))) : next.channel = r.channel := by
    rw [← channel_settle r g, Except.ok.inj hg]
  rw [Reassembler.push] at h
  rcases hdecode : Packet.decode raw with cause | packet
  · rw [hdecode] at h
    cases h
  · rw [hdecode] at h
    simp only at h
    split_ifs at h
    rcases packet with ⟨_, command, length, data⟩ | ⟨_, seq, data⟩ <;>
      rcases hg : r.gathered with _ | g <;> rw [hg] at h
    · simp only [Reassembler.begin] at h
      split_ifs at h
      · exact hsettle h
      · cases h
        rfl
    · cases h
    · cases h
    · simp only [Reassembler.extend] at h
      split_ifs at h
      exact hsettle h

/-- A reader that is not selective keeps to its channel and takes no packet of another one. -/
theorem channel_of_push {r next : Reader} {raw : Bytes} {payload : Option Bytes}
    (hselective : r.selective = false) (h : r.push raw = .ok (next, payload)) :
    next.selective = false ∧ next.reassembler.channel = r.reassembler.channel ∧
      ∃ packet, Packet.decode raw = .ok packet ∧ packet.channel = r.reassembler.channel := by
  simp only [push, hselective, Bool.false_and, Bool.false_eq_true, if_false, accept] at h
  rcases hpush : r.reassembler.push raw with cause | ⟨reassembler, payload'⟩
  · rw [hpush] at h
    cases h
  · rw [hpush] at h
    cases h
    refine ⟨rfl, channel_of_reassemble hpush, ?_⟩
    rw [Reassembler.push] at hpush
    rcases hdecode : Packet.decode raw with cause | packet
    · rw [hdecode] at hpush
      cases hpush
    · rw [hdecode] at hpush
      simp only at hpush
      split_ifs at hpush with hchannel
      exact ⟨packet, rfl, hchannel⟩

theorem push_discard {channel : ChannelId} {command : UInt8} {raw : Bytes} {packet : Packet}
    (h : Packet.decode raw = .ok packet) (hopens : opensHandshake channel packet = false) :
    (awaiting channel command true).push raw = .ok (awaiting channel command true, none) := by
  simp only [push, awaiting, Reassembler.isStarted, Reassembler.await, Option.isSome_none,
    Bool.not_false, Bool.and_self, if_true, h, hopens, Bool.false_eq_true, if_false]

/-- The pieces of a payload within the limit have enough sequence numbers. -/
theorem length_chunks_le {size : Nat} (hsize : initialHeaderSize < size) {payload : Bytes}
    (h : payload.length ≤ maxPayload size) :
    (Bytes.chunks (size - continuationHeaderSize)
      (payload.drop (size - initialHeaderSize))).length ≤ 128 := by
  have hbound := Nat.le_trans h (Nat.min_le_left ..)
  rw [Bytes.length_chunks, List.length_drop]
  simp only [initialHeaderSize, continuationHeaderSize] at hsize hbound ⊢
  apply Nat.le_of_lt_succ
  rw [Nat.div_lt_iff_lt_mul (by omega)]
  omega

private theorem decode_of_mem_continuations {size : Nat} {channel : ChannelId} {seq : UInt8}
    {pieces : List Bytes} (hseq : seq.toNat + pieces.length ≤ 128) {raw : Bytes}
    (h : raw ∈ (continuations channel seq pieces).map (Packet.encode size)) :
    ∃ seq data, Packet.decode raw = .ok (.continuation channel seq data) := by
  induction pieces generalizing seq with
  | nil => cases h
  | cons piece pieces ih =>
    rw [List.length_cons] at hseq
    rw [continuations, List.map_cons, List.mem_cons] at h
    rcases h with rfl | h
    · have htype : seq &&& 0x80 = 0 := Packet.small_has_no_type_bit seq (by omega)
      exact ⟨_, _, Packet.decode_encode_continuation size channel htype piece⟩
    · refine ih ?_ h
      rw [UInt8.toNat_add]
      simp only [UInt8.reduceToNat]
      omega

/-- The packets of a message are an initial packet with its command and continuations, all of its
channel. -/
theorem packets_eq_cons {size : Nat} (hsize : initialHeaderSize < size) (channel : ChannelId)
    {command : UInt8} (hcommand : command &&& 0x80 = 0) {payload : Bytes}
    (hpayload : payload.length ≤ maxPayload size) : ∃ raw rest,
      (messagePackets command channel payload size).map (Packet.encode size) = raw :: rest ∧
      (∃ length data, Packet.decode raw = .ok (.initial channel command length data)) ∧
      ∀ raw' ∈ rest, ∃ seq data, Packet.decode raw' = .ok (.continuation channel seq data) := by
  refine ⟨_, _, rfl, ⟨_, _, Packet.decode_encode_initial size channel hcommand _ _⟩, ?_⟩
  intro raw' hraw
  refine decode_of_mem_continuations ?_ hraw
  have hchunks := length_chunks_le hsize hpayload
  simpa using hchunks

/-- **The packets of a message bring its payload**: the last of them completes it, and packets
queued behind them are not taken. -/
theorem feed_message {size : Nat} (hsize : initialHeaderSize < size) (channel : ChannelId)
    {command : UInt8} (hcommand : command &&& 0x80 = 0) {selective : Bool}
    (hselective : selective = true → command = Command.init.toByte) {payload : Bytes}
    (hpayload : payload.length ≤ maxPayload size) (more : List Bytes) :
    (awaiting channel command selective).feed
        ((messagePackets command channel payload size).map (Packet.encode size) ++ more) =
      .gave payload more := by
  have hmask : command &&& 0x7F = command := Packet.masked_command command hcommand
  have hlength : (UInt16.ofNat payload.length).toNat = payload.length := by
    have := Nat.le_trans hpayload (Nat.min_le_right ..)
    rw [UInt16.toNat_ofNat']
    omega
  have hchunks := length_chunks_le hsize hpayload
  set first := size - initialHeaderSize with hfirst
  have hdecode := Packet.decode_encode_initial size channel hcommand
    (UInt16.ofNat payload.length) (payload.take first)
  have hraw : (Packet.encode size (.initial channel command (UInt16.ofNat payload.length)
      (payload.take first))).length = size := by
    apply Packet.length_encode_initial
    rw [List.length_take]
    omega
  have hpush := push_initial selective hdecode hmask
    (by rw [hlength, hraw]; exact hpayload) hselective
  rw [hlength] at hpush
  simp only [messagePackets, List.map_cons, List.cons_append, ← hfirst]
  by_cases hsingle : payload.length ≤ first
  · have hall : (payload.take first ++ Bytes.zeros (size -
        (initialHeaderSize + (payload.take first).length))).take payload.length = payload := by
      rw [List.take_of_length_le hsingle, Bytes.take_append_zeros (Nat.le_refl _),
        List.take_length]
    have hnil : Bytes.chunks (size - continuationHeaderSize) (payload.drop first) = [] := by
      rw [List.drop_eq_nil_of_le hsingle, Bytes.chunks_nil]
      simp only [initialHeaderSize, continuationHeaderSize] at hsize ⊢
      omega
    simp only [hall, if_true] at hpush
    rw [feed_cons_some hpush, hnil]
    rfl
  · have htake : (payload.take first).length = first := by
      rw [List.length_take]
      omega
    have hall : (payload.take first ++ Bytes.zeros (size -
        (initialHeaderSize + (payload.take first).length))).take payload.length =
          payload.take first := by
      have hfull : size - (initialHeaderSize + first) = 0 := by omega
      rw [htake, hfull]
      simp only [Bytes.zeros, List.replicate_zero, List.append_nil]
      rw [List.take_of_length_le (by omega)]
    have hshort : ¬ (payload.take first).length = payload.length := by omega
    simp only [hall, if_neg hshort] at hpush
    rw [feed_cons_none hpush]
    have hrest : payload.drop first ≠ [] := by
      rw [ne_eq, List.drop_eq_nil_iff]
      omega
    have hlen : (payload.take first).length + (payload.drop first).length = payload.length := by
      rw [htake, List.length_drop]
      omega
    have hconts := @feed_continuations size
      (by simp only [initialHeaderSize, continuationHeaderSize] at hsize ⊢; omega)
      channel command selective more (payload.drop first) (payload.take first) 0 hrest
      (by simpa using hchunks)
    rwa [hlen, List.take_append_drop] at hconts

end Reader

end Hid

end Ctap
