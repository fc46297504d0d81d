import Ctap.Proofs.Conversation
import Ctap.Proofs.Hid.Stream

/-!
# Handshakes behind leftover traffic

A handshake sends INIT and reads its answer from a queue in which anything may be ahead of it: the
end of an answer whose reader went away, keepalives, messages of other channels. Whatever cannot be
read as the beginning of an answer is discarded, packet by packet; the answer itself is put together
without a gap, and what is queued behind it stays. An error message on the channel ends the
handshake in its place.

## Main definitions

* `IsLeftover`: the packets that may be ahead of the answer.

## Main results

* `Handshake.welcomed_behind_leftovers`: how a handshake ends.
-/

namespace Ctap.Hid

open Link (Concludes Ends)

/-- A packet that does not begin an answer to a handshake on a channel: a continuation, or the
initial packet of another channel or of a message that is neither INIT nor an error. -/
def IsLeftover (channel : ChannelId) (raw : Bytes) : Prop :=
  ∃ p, Packet.decode raw = .ok p ∧ ∀ length data,
    p ≠ .initial channel Command.init.toByte length data ∧
      p ≠ .initial channel Command.error.toByte length data

theorem isLeftover_iff {channel : ChannelId} {raw : Bytes} : IsLeftover channel raw ↔
    ∃ p, Packet.decode raw = .ok p ∧ Reader.opensHandshake channel p = false := by
  refine exists_congr fun p => and_congr_right fun _ => ?_
  cases p with
  | continuation => simp [Reader.opensHandshake]
  | initial c command length data =>
    simp only [ne_eq, Packet.initial.injEq, not_and, Reader.opensHandshake, Bool.and_eq_false_iff,
      Bool.or_eq_false_iff, beq_eq_false_iff_ne]
    grind

namespace Handshake

variable {closed : Option Link.Error} {channel : ChannelId} {nonce : Bytes} {size : Nat}
  {reader : Reader} {queue sent rest : List Bytes} {result : Except Link.Error Welcome}

/-- The packets of INIT go out one by one, and then its answer is read. -/
theorem concludes_start
    (h : Concludes closed (⟨nonce, .reading reader⟩ : Handshake) queue [] result rest)
    (packets : List Bytes) :
    Concludes closed (⟨nonce, .start reader (.ok packets)⟩ : Handshake) queue packets result
      rest := by
  induction packets with
  | nil => exact h
  | cons packet packets ih =>
    refine .send rfl ?_
    cases packets <;> exact ih

/-- What is discarded leaves a handshake as it was. -/
theorem concludes_behind {junk : List Bytes} (hjunk : ∀ raw ∈ junk, IsLeftover channel raw)
    (h : Concludes closed
      (⟨nonce, .reading (.awaiting channel Command.init.toByte true)⟩ : Handshake) queue sent
      result rest) :
    Concludes closed (⟨nonce, .reading (.awaiting channel Command.init.toByte true)⟩ : Handshake)
      (junk ++ queue) sent result rest := by
  induction junk with
  | nil => exact h
  | cons raw junk ih =>
    obtain ⟨hraw, hjunk⟩ := List.forall_mem_cons.1 hjunk
    obtain ⟨p, hdecode, hopens⟩ := isLeftover_iff.1 hraw
    refine .receive rfl ?_
    simp only [Link.Conversation.received, Exchange.received, Reader.push_discard hdecode hopens]
    exact ih hjunk

theorem concludes_refused {raw : Bytes} {cause : Link.Error} (h : reader.push raw = .error cause)
    (behind : List Bytes) :
    Concludes closed (⟨nonce, .reading reader⟩ : Handshake) (raw :: behind) [] (.error cause)
      behind := by
  refine .receive rfl (.stop ?_)
  simp only [Link.Conversation.received, Link.Conversation.move, Exchange.received, h]
  rfl

/-- Packets that bring a payload end the handshake with it. -/
theorem concludes_of_feed {payload : Bytes} {behind : List Bytes}
    (h : reader.feed queue = .gave payload behind) :
    Concludes closed (⟨nonce, .reading reader⟩ : Handshake) queue [] (conclude nonce (.ok payload))
      behind := by
  induction queue generalizing reader with
  | nil => cases h
  | cons raw queue ih =>
    refine .receive rfl ?_
    simp only [Link.Conversation.received, Exchange.received]
    rcases hpush : reader.push raw with cause | ⟨next, _ | payload'⟩
    · rw [Reader.feed_cons_error hpush] at h
      cases h
    · rw [Reader.feed_cons_none hpush] at h
      exact ih h
    · rw [Reader.feed_cons_some hpush] at h
      cases h
      exact .stop rfl

/-- **A handshake finds its answer behind leftover traffic.** Whatever else is queued ahead of it
is discarded, the packets of the answer are taken, and what is behind them stays. The result is the
answer if it has the nonce that was sent. Where an error message on the channel comes first, the
handshake ends with its code. -/
theorem welcomed_behind_leftovers (closed : Option Link.Error) (hsize : initialHeaderSize < size)
    (hnonce : nonce.length = nonceSize) {junk : List Bytes}
    (hjunk : ∀ raw ∈ junk, IsLeftover channel raw) (behind : List Bytes) :
    ∃ packets, packetize .init channel nonce size = .ok packets ∧
      (∀ w : Welcome, w.nonce.length = nonceSize → w.deviceVersion.length = 3 →
        ∃ response, packetize .init channel w.encode size = .ok response ∧
          Ends closed (start channel nonce size) (junk ++ (response ++ behind)) packets
            (if w.nonce = nonce then .ok w else .error .nonceMismatch) behind) ∧
      ∀ raw length data,
        Packet.decode raw = .ok (.initial channel Command.error.toByte length data) →
          Ends closed (start channel nonce size) (junk ++ raw :: behind) packets
            (.error (.deviceError (data.head?.getD 0x7F))) behind := by
  have hpacketize {payload : Bytes} (h : payload.length ≤ handshakeSize) :
      packetize .init channel payload size =
        .ok ((messagePackets Command.init.toByte channel payload size).map
          (Packet.encode size)) :=
    packetize_eq_ok.2 ⟨hsize, Nat.le_trans h (handshakeSize_le hsize), rfl⟩
  have hgreeting := hpacketize (hnonce ▸ (by decide : nonceSize ≤ handshakeSize))
  refine ⟨_, hgreeting, fun w hwnonce hversion => ?_, fun raw length data hdecode => ?_⟩
  · have hlength := Welcome.length_encode hwnonce hversion
    refine ⟨_, hpacketize (Nat.le_of_eq hlength), Concludes.ends ?_⟩
    have hfeed : (Reader.awaiting channel Command.init.toByte true).feed
        ((messagePackets Command.init.toByte channel w.encode size).map (Packet.encode size) ++
          behind) = .gave w.encode behind :=
      Reader.feed_message hsize channel Command.init.no_type_bit (fun _ => rfl)
        (hlength ▸ handshakeSize_le hsize) behind
    have hresult : conclude nonce (.ok w.encode) =
        if w.nonce = nonce then .ok w else .error .nonceMismatch := by
      rw [conclude, Welcome.decode_encode hwnonce hversion]
    rw [start, hgreeting, ← hresult]
    exact concludes_start (concludes_behind hjunk (concludes_of_feed hfeed)) _
  · have hother : Command.error.toByte ≠ Command.init.toByte &&& 0x7F := by decide
    have hpush : (Reader.awaiting channel Command.init.toByte true).push raw =
        .error (.deviceError (data.head?.getD 0x7F)) := Reader.push_error hdecode hother
    refine Concludes.ends ?_
    rw [start, hgreeting]
    exact concludes_start (concludes_behind hjunk (concludes_refused hpush behind)) _

/-- Packets of eight octets ahead of an answer on channel 5: a keepalive, the end of another
message, and on channel 6 an error message and INIT. -/
def leftoversOnFive : List Bytes :=
  [[0, 0, 0, 5, 0xBB, 0, 1, 2], [0, 0, 0, 5, 3, 9, 9, 9], [0, 0, 0, 6, 0xBF, 0, 1, 6],
    [0, 0, 0, 6, 0x86, 0, 17, 1]]

/-- An answer that keeps channel 5. -/
def welcomeOnFive : Welcome := ⟨[1, 2, 3, 4, 5, 6, 7, 8], 5, 2, [1, 0, 0], 4⟩

/-- The answer comes in seven packets behind the leftovers, and the handshake takes them all; an
error message in its place ends the handshake. -/
theorem welcomed_behind_leftovers_on_five :
    initialHeaderSize < 8 ∧ welcomeOnFive.nonce.length = nonceSize ∧
    (∀ raw ∈ leftoversOnFive, IsLeftover 5 raw) ∧
    ∃ packets response, packetize .init 5 welcomeOnFive.nonce 8 = .ok packets ∧
      packetize .init 5 welcomeOnFive.encode 8 = .ok response ∧ response.length = 7 ∧
      Ends none (start 5 welcomeOnFive.nonce 8) (leftoversOnFive ++ (response ++ [[7]])) packets
        (.ok welcomeOnFive) [[7]] ∧
      Ends none (start 5 welcomeOnFive.nonce 8)
        (leftoversOnFive ++ [0, 0, 0, 5, 0xBF, 0, 0] :: [[7]]) packets
        (.error (.deviceError 0x7F)) [[7]] := by
  have hleftovers : ∀ raw ∈ leftoversOnFive, IsLeftover 5 raw := by
    simp only [isLeftover_iff, leftoversOnFive, List.forall_mem_cons, List.not_mem_nil,
      false_implies, implies_true, and_true]
    exact ⟨⟨_, rfl, by decide⟩, ⟨_, rfl, rfl⟩, ⟨_, rfl, by decide⟩, ⟨_, rfl, by decide⟩⟩
  obtain ⟨packets, hpackets, hanswer, herror⟩ := welcomed_behind_leftovers none (by decide : 7 < 8)
    (rfl : welcomeOnFive.nonce.length = nonceSize) hleftovers [[7]]
  obtain ⟨response, hresponse, hends⟩ := hanswer welcomeOnFive rfl rfl
  have hlength : response.length = 7 := by
    obtain ⟨-, -, rfl⟩ := packetize_eq_ok.1 hresponse
    rfl
  exact ⟨by decide, rfl, hleftovers, packets, response, hpackets, hresponse, hlength, hends,
    herror _ 0 [] rfl⟩

end Handshake

end Ctap.Hid
