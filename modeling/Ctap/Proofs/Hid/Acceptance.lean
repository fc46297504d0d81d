import Ctap.Proofs.Hid.Stream
import Mathlib.Data.List.Forall2

/-!
# What a reassembler accepts

A reassembler is handed packets of one length, with any octets in them. It puts them together to a
message if and only if they are the packets into which the payload is cut, apart from the octets
that fill the last of them, which are not looked at.

## Main definitions

* `Reassembler.Completes`: packets make up one message.
* `padding`, `IsPadding`: the octets of the last packet that come after the payload.

## Main results

* `Packet.decode_eq_initial`, `Packet.decode_eq_continuation`: which octets are read as a packet.
* `Reassembler.completes_await`: the packets of a message, up to the octets after its payload.
* `completes_iff_packetized`: what makes up a message is what its payload is cut into.
-/

namespace Ctap.Hid

/-! ### Which octets are read as a packet -/

namespace Packet

private theorem untagged (tag : UInt8) (h : tag &&& 0x80 ≠ 0) :
    (tag &&& 0x7F) &&& 0x80 = 0 ∧ (tag &&& 0x7F) ||| 0x80 = tag := by
  obtain ⟨tag⟩ := tag
  revert tag
  decide +kernel

variable {raw data : Bytes} {channel : ChannelId} {command seq : UInt8} {length : UInt16}

/-- **Which octets are read as an initial packet.** -/
theorem decode_eq_initial : decode raw = .ok (.initial channel command length data) ↔
    command &&& 0x80 = 0 ∧ raw = (initial channel command length data).octets := by
  constructor
  · intro h
    unfold decode at h
    split at h
    · rename_i a b c d tag rest
      split_ifs at h with htype
      · cases h
      · split at h <;> cases h
        obtain ⟨huntagged, htagged⟩ := untagged tag htype
        refine ⟨huntagged, ?_⟩
        simp [octets, encode, Bytes.padTo, Bytes.zeros, Bytes.ofUInt32_toUInt32,
          Bytes.ofUInt16_toUInt16, htagged]
    · cases h
  · rintro ⟨hcommand, rfl⟩
    rw [octets, decode_encode_initial 0 channel hcommand, Nat.zero_sub]
    simp [Bytes.zeros]

/-- **Which octets are read as a continuation.** -/
theorem decode_eq_continuation : decode raw = .ok (.continuation channel seq data) ↔
    seq &&& 0x80 = 0 ∧ raw = (continuation channel seq data).octets := by
  constructor
  · intro h
    unfold decode at h
    split at h
    · rename_i a b c d tag rest
      split_ifs at h with htype
      · cases h
        refine ⟨htype, ?_⟩
        simp [octets, encode, Bytes.padTo, Bytes.zeros, Bytes.ofUInt32_toUInt32]
      · split at h <;> cases h
    · cases h
  · rintro ⟨hseq, rfl⟩
    rw [octets, decode_encode_continuation 0 channel hseq, Nat.zero_sub]
    simp [Bytes.zeros]

theorem length_of_initial (h : decode raw = .ok (.initial channel command length data)) :
    raw.length = initialHeaderSize + data.length := by
  rw [(decode_eq_initial.1 h).2, length_octets_initial]

theorem length_of_continuation (h : decode raw = .ok (.continuation channel seq data)) :
    raw.length = continuationHeaderSize + data.length := by
  rw [(decode_eq_continuation.1 h).2, length_octets_continuation]

/-- Whether octets are those of a packet, whatever fills it. -/
def Begins (p : Packet) (raw : Bytes) : Prop := p.octets <+: raw

/-- Octets that begin with those of an initial packet are read as this packet with more data. -/
theorem begins_initial (h : command &&& 0x80 = 0) :
    (initial channel command length data).Begins raw ↔
      ∃ more, decode raw = .ok (.initial channel command length (data ++ more)) := by
  simp only [decode_eq_initial, h, true_and]
  refine exists_congr fun more => ?_
  rw [eq_comm]
  simp [octets, encode, Bytes.padTo, Bytes.zeros]

/-- Octets that begin with those of a continuation are read as this continuation with more data. -/
theorem begins_continuation (h : seq &&& 0x80 = 0) :
    (continuation channel seq data).Begins raw ↔
      ∃ more, decode raw = .ok (.continuation channel seq (data ++ more)) := by
  simp only [decode_eq_continuation, h, true_and]
  refine exists_congr fun more => ?_
  rw [eq_comm]
  simp [octets, encode, Bytes.padTo, Bytes.zeros]

theorem begins_initial_of_full (h : command &&& 0x80 = 0)
    (hfull : raw.length = initialHeaderSize + data.length) :
    (initial channel command length data).Begins raw ↔
      decode raw = .ok (.initial channel command length data) := by
  rw [decode_eq_initial, and_iff_right h, Begins]
  refine ⟨fun hbegins => (hbegins.eq_of_length ?_).symm, ?_⟩
  · rw [length_octets_initial, hfull]
  · rintro rfl
    exact List.prefix_rfl

theorem begins_continuation_of_full (h : seq &&& 0x80 = 0)
    (hfull : raw.length = continuationHeaderSize + data.length) :
    (continuation channel seq data).Begins raw ↔
      decode raw = .ok (.continuation channel seq data) := by
  rw [decode_eq_continuation, and_iff_right h, Begins]
  refine ⟨fun hbegins => (hbegins.eq_of_length ?_).symm, ?_⟩
  · rw [length_octets_continuation, hfull]
  · rintro rfl
    exact List.prefix_rfl

end Packet

/-! ### Packets that make up a message -/

namespace Reassembler

/-- Whether packets make up one message with a payload: each but the last one is taken and leaves
the message begun, and the last one brings the payload. -/
def Completes (r : Reassembler) (raws : List Bytes) (payload : Bytes) : Prop :=
  ∃ started, r.responses raws =
    List.replicate (raws.length - 1) ⟨.ok none, true⟩ ++ [⟨.ok (some payload), started⟩]

variable {r next : Reassembler} {raw payload : Bytes} {more raws : List Bytes}
  {channel : ChannelId} {expected : UInt8} {size : Nat}

theorem not_completes_nil : ¬ r.Completes [] payload := by
  rintro ⟨started, h⟩
  cases h

theorem result_eq_ok {o : Option Bytes} : r.result raw = .ok o ↔ ∃ next, r.Takes raw next o := by
  simp only [← push_eq_ok, result]
  rcases r.push raw with cause | ⟨next, payload⟩
  · simp [Except.map]
  · simp [Except.map]

/-- The first packet either is the only one, or leaves the message to the others. -/
theorem completes_cons : r.Completes (raw :: more) payload ↔
    more = [] ∧ (∃ next, r.Takes raw next (some payload)) ∨
      ∃ next, r.Takes raw next none ∧ next.isStarted ∧ next.Completes more payload := by
  cases more with
  | nil =>
    simp only [Completes, responses, List.length_singleton, Nat.sub_self, List.replicate_zero,
      List.nil_append, List.cons.injEq, Response.mk.injEq, and_true, true_and, exists_and_left,
      exists_eq', result_eq_ok]
    exact (or_iff_left fun ⟨next, _, _, h⟩ => @not_completes_nil next payload h).symm
  | cons second rest =>
    rw [Completes, responses]
    simp only [List.length_cons, Nat.add_sub_cancel, List.replicate_succ, List.cons_append,
      List.cons.injEq, Response.mk.injEq, exists_and_left, reduceCtorEq, false_and, false_or]
    constructor
    · rintro ⟨⟨hresult, hstarted⟩, hrest⟩
      obtain ⟨next, htakes⟩ := result_eq_ok.1 hresult
      rw [step_of_push (push_eq_ok.2 htakes)] at hstarted hrest
      exact ⟨next, htakes, hstarted, hrest⟩
    · rintro ⟨next, htakes, hstarted, hrest⟩
      rw [step_of_push (push_eq_ok.2 htakes)]
      exact ⟨⟨result_eq_ok.2 ⟨next, htakes⟩, hstarted⟩, hrest⟩

section

variable {total : Nat} {data : Bytes} {seq : UInt8}

private theorem takes_gathering {o : Option Bytes} :
    Takes ⟨channel, expected, some ⟨total, data, seq⟩⟩ raw next o ↔
      ∃ piece, Packet.decode raw = .ok (.continuation channel seq piece) ∧
        settle ⟨channel, expected, some ⟨total, data, seq⟩⟩
          ⟨total, data ++ piece.take (total - data.length), seq + 1⟩ = (next, o) := by
  constructor
  · intro h
    cases h with
    | passed idle => cases idle
    | begun idle => cases idle
    | continued gathered decode =>
      cases gathered
      exact ⟨_, decode, rfl⟩
  · rintro ⟨piece, decode, hsettle⟩
    have h := Takes.continued (r := ⟨channel, expected, some ⟨total, data, seq⟩⟩) rfl decode
    rwa [hsettle] at h

/-- A continuation completes the message if it holds all that is missing. -/
theorem gathering_gives (h : data.length < total) :
    (∃ next, Takes ⟨channel, expected, some ⟨total, data, seq⟩⟩ raw next (some payload)) ↔
      ∃ piece, Packet.decode raw = .ok (.continuation channel seq piece) ∧
        total - data.length ≤ piece.length ∧
        payload = data ++ piece.take (total - data.length) := by
  simp only [takes_gathering, settle_eq, List.length_append, List.length_take]
  constructor
  · rintro ⟨next, piece, hdecode, hsettle⟩
    split_ifs at hsettle <;> cases hsettle
    exact ⟨piece, hdecode, by omega, rfl⟩
  · rintro ⟨piece, hdecode, hholds, rfl⟩
    exact ⟨_, piece, hdecode, if_pos (by omega)⟩

/-- A continuation that does not is taken as a whole. -/
theorem gathering_takes (h : data.length < total) :
    Takes ⟨channel, expected, some ⟨total, data, seq⟩⟩ raw next none ↔
      ∃ piece, Packet.decode raw = .ok (.continuation channel seq piece) ∧
        piece.length < total - data.length ∧
        next = ⟨channel, expected, some ⟨total, data ++ piece, seq + 1⟩⟩ := by
  simp only [takes_gathering, settle_eq, List.length_append, List.length_take]
  constructor
  · rintro ⟨piece, hdecode, hsettle⟩
    split_ifs at hsettle <;> cases hsettle
    exact ⟨piece, hdecode, by omega, by rw [List.take_of_length_le (by omega)]⟩
  · rintro ⟨piece, hdecode, hshort, rfl⟩
    refine ⟨piece, hdecode, ?_⟩
    rw [if_neg (by omega), List.take_of_length_le (by omega)]

/-- The last continuation holds all that is missing. -/
theorem completes_last (hseq : seq &&& 0x80 = 0) (hmissing : data.length < total)
    (hlast : continuationHeaderSize + (total - data.length) ≤ raw.length) :
    Completes ⟨channel, expected, some ⟨total, data, seq⟩⟩ (raw :: more) payload ↔
      more = [] ∧ ∃ missing, missing.length = total - data.length ∧ payload = data ++ missing ∧
        (Packet.continuation channel seq missing).Begins raw := by
  simp only [completes_cons, gathering_gives hmissing, gathering_takes hmissing,
    Packet.begins_continuation hseq]
  constructor
  · rintro (⟨rfl, piece, hdecode, hholds, rfl⟩ | ⟨_, ⟨piece, hdecode, hshort, rfl⟩, -⟩)
    · refine ⟨rfl, piece.take (total - data.length), ?_, rfl, piece.drop (total - data.length), ?_⟩
      · rw [List.length_take, Nat.min_eq_left hholds]
      · rw [List.take_append_drop, hdecode]
    · have hlength := Packet.length_of_continuation hdecode
      omega
  · rintro ⟨rfl, missing, hlength, rfl, rest, hdecode⟩
    refine .inl ⟨rfl, _, hdecode, ?_, ?_⟩
    · rw [List.length_append]
      omega
    · rw [← hlength, List.take_left]

/-- A continuation that holds less leaves the rest to the others. -/
theorem completes_full (hmissing : data.length < total)
    (hfull : raw.length < continuationHeaderSize + (total - data.length)) :
    Completes ⟨channel, expected, some ⟨total, data, seq⟩⟩ (raw :: more) payload ↔
      ∃ piece, Packet.decode raw = .ok (.continuation channel seq piece) ∧
        Completes ⟨channel, expected, some ⟨total, data ++ piece, seq + 1⟩⟩ more payload := by
  simp only [completes_cons, gathering_gives hmissing, gathering_takes hmissing]
  constructor
  · rintro (⟨-, piece, hdecode, hholds, -⟩ | ⟨_, ⟨piece, hdecode, -, rfl⟩, -, hcompletes⟩)
    · have hlength := Packet.length_of_continuation hdecode
      omega
    · exact ⟨piece, hdecode, hcompletes⟩
  · rintro ⟨piece, hdecode, hcompletes⟩
    have hlength := Packet.length_of_continuation hdecode
    exact .inr ⟨_, ⟨piece, hdecode, by omega, rfl⟩, rfl, hcompletes⟩

end

private theorem continuations_chunks {k : Nat} (hk : 0 < k) {missing : Bytes}
    (hpos : 0 < missing.length) (seq : UInt8) :
    continuations channel seq (Bytes.chunks k missing) =
      .continuation channel seq (missing.take k) ::
        continuations channel (seq + 1) (Bytes.chunks k (missing.drop k)) := by
  rw [Bytes.chunks_eq_cons hk (List.ne_nil_of_length_pos hpos), continuations]

private theorem continuations_of_le {k : Nat} (hk : 0 < k) {missing : Bytes}
    (hpos : 0 < missing.length) (hfits : missing.length ≤ k) (seq : UInt8) :
    continuations channel seq (Bytes.chunks k missing) = [.continuation channel seq missing] := by
  rw [continuations_chunks hk hpos, List.take_of_length_le hfits, List.drop_eq_nil_of_le hfits,
    Bytes.chunks_nil hk, continuations]

/-- **What completes a message that has begun**: the continuations that carry what is missing. -/
theorem completes_gathering (hsize : continuationHeaderSize < size) {total : Nat} {data : Bytes}
    {seq : UInt8} (hraws : ∀ raw ∈ raws, raw.length = size) (hmissing : data.length < total)
    (hseq : seq.toNat + (total - data.length + (size - continuationHeaderSize) - 1) /
      (size - continuationHeaderSize) ≤ 128) :
    Completes ⟨channel, expected, some ⟨total, data, seq⟩⟩ raws payload ↔
      ∃ missing, missing.length = total - data.length ∧ payload = data ++ missing ∧
        List.Forall₂ Packet.Begins (continuations channel seq
          (Bytes.chunks (size - continuationHeaderSize) missing)) raws := by
  have hk : 0 < size - continuationHeaderSize := by omega
  set k := size - continuationHeaderSize with hkdef
  induction raws generalizing data seq with
  | nil =>
    refine iff_of_false not_completes_nil ?_
    rintro ⟨missing, hlength, -, hall⟩
    rw [Bytes.chunks_eq_cons hk (List.ne_nil_of_length_pos (by omega))] at hall
    cases hall
  | cons raw more ih =>
    have hraw := hraws raw (List.mem_cons_self ..)
    have hsmall : seq &&& 0x80 = 0 := by
      have hpos : 0 < (total - data.length + k - 1) / k := Nat.div_pos (by omega) hk
      exact Packet.small_has_no_type_bit seq (by omega)
    by_cases hlast : total - data.length ≤ k
    · -- The packet holds everything that is missing.
      rw [completes_last hsmall hmissing (by omega)]
      constructor
      · rintro ⟨rfl, missing, hlength, rfl, hbegins⟩
        refine ⟨missing, hlength, rfl, ?_⟩
        rw [continuations_of_le hk (by omega) (by omega)]
        exact .cons hbegins .nil
      · rintro ⟨missing, hlength, rfl, hall⟩
        rw [continuations_of_le hk (by omega) (by omega)] at hall
        obtain ⟨hbegins, hrest⟩ := List.forall₂_cons.1 hall
        exact ⟨List.forall₂_nil_left_iff.1 hrest, missing, hlength, rfl, hbegins⟩
    · -- The packet is full, and the others hold the rest.
      have hrest {piece : Bytes} (h : piece.length = k) :
          Completes ⟨channel, expected, some ⟨total, data ++ piece, seq + 1⟩⟩ more payload ↔
            ∃ missing, missing.length = total - (data ++ piece).length ∧
              payload = data ++ piece ++ missing ∧ List.Forall₂ Packet.Begins
                (continuations channel (seq + 1) (Bytes.chunks k missing)) more := by
        have hless : total - data.length + k - 1 = total - (data ++ piece).length + k - 1 + k := by
          rw [List.length_append]
          omega
        rw [hless, Nat.add_div_right _ hk] at hseq
        refine ih (fun raw h => hraws raw (List.mem_cons_of_mem _ h)) ?_ ?_
        · rw [List.length_append]
          omega
        · rw [UInt8.toNat_add]
          simp only [UInt8.reduceToNat]
          omega
      rw [completes_full hmissing (by omega)]
      constructor
      · rintro ⟨piece, hdecode, hcompletes⟩
        have hlength := Packet.length_of_continuation hdecode
        have hpiece : piece.length = k := by omega
        obtain ⟨missing, hothers, rfl, hall⟩ := (hrest hpiece).1 hcompletes
        rw [List.length_append] at hothers
        have hall' : (piece ++ missing).length = total - data.length := by
          rw [List.length_append]
          omega
        refine ⟨piece ++ missing, hall', List.append_assoc .., ?_⟩
        rw [continuations_chunks hk (by omega), ← hpiece, List.take_left, List.drop_left, hpiece]
        exact .cons ((Packet.begins_continuation_of_full hsmall hlength).2 hdecode) hall
      · rintro ⟨missing, hlength, rfl, hall⟩
        rw [continuations_chunks hk (by omega)] at hall
        obtain ⟨hfirst, hothers⟩ := List.forall₂_cons.1 hall
        have htake : (missing.take k).length = k := by
          rw [List.length_take]
          omega
        refine ⟨_, (Packet.begins_continuation_of_full hsmall (by omega)).1 hfirst,
          (hrest htake).2 ⟨missing.drop k, ?_, ?_, hothers⟩⟩
        · rw [List.length_drop, List.length_append]
          omega
        · rw [List.append_assoc, List.take_append_drop]

private theorem takes_await {command : Command} {o : Option Bytes}
    (h : o.isSome ∨ next.isStarted) : (await channel command.toByte).Takes raw next o ↔
      ∃ length data, Packet.decode raw = .ok (.initial channel command.toByte length data) ∧
        length.toNat ≤ maxPayload raw.length ∧
        settle ⟨channel, command.toByte, none⟩ ⟨length.toNat, data.take length.toNat, 0⟩ =
          (next, o) := by
  have hawait : await channel command.toByte = ⟨channel, command.toByte, none⟩ := by
    rw [await, Command.masked]
  rw [hawait]
  constructor
  · intro htakes
    cases htakes with
    | passed => simp [isStarted] at h
    | begun idle decode fits => exact ⟨_, _, decode, fits, rfl⟩
    | continued gathered => cases gathered
  · rintro ⟨length, data, decode, fits, hsettle⟩
    have hbegun := Takes.begun (r := ⟨channel, command.toByte, none⟩) rfl decode fits
    rwa [hsettle] at hbegun

/-- A first packet is the only one if it holds the whole payload. -/
theorem await_gives {command : Command} :
    (∃ next, (await channel command.toByte).Takes raw next (some payload)) ↔
      ∃ length data, Packet.decode raw = .ok (.initial channel command.toByte length data) ∧
        length.toNat ≤ maxPayload raw.length ∧ length.toNat ≤ data.length ∧
        payload = data.take length.toNat := by
  simp only [takes_await (o := some payload) (.inl rfl), settle_eq, List.length_take]
  constructor
  · rintro ⟨next, length, data, hdecode, hfits, hsettle⟩
    split_ifs at hsettle <;> cases hsettle
    exact ⟨length, data, hdecode, hfits, by omega, rfl⟩
  · rintro ⟨length, data, hdecode, hfits, hholds, rfl⟩
    exact ⟨_, length, data, hdecode, hfits, if_pos (by omega)⟩

/-- A first packet that does not begins the message and is taken as a whole. -/
theorem await_takes {command : Command} :
    ((await channel command.toByte).Takes raw next none ∧ next.isStarted) ↔
      ∃ length data, Packet.decode raw = .ok (.initial channel command.toByte length data) ∧
        length.toNat ≤ maxPayload raw.length ∧ data.length < length.toNat ∧
        next = ⟨channel, command.toByte, some ⟨length.toNat, data, 0⟩⟩ := by
  constructor
  · rintro ⟨htakes, hstarted⟩
    obtain ⟨length, data, hdecode, hfits, hsettle⟩ := (takes_await (.inr hstarted)).1 htakes
    simp only [settle_eq, List.length_take] at hsettle
    split_ifs at hsettle <;> cases hsettle
    exact ⟨length, data, hdecode, hfits, by omega, by rw [List.take_of_length_le (by omega)]⟩
  · rintro ⟨length, data, hdecode, hfits, hshort, rfl⟩
    refine ⟨(takes_await (.inr rfl)).2 ⟨length, data, hdecode, hfits, ?_⟩, rfl⟩
    simp only [settle_eq, List.length_take]
    rw [if_neg (by omega), List.take_of_length_le (by omega)]

/-- The first packet is the only one, or the others hold the rest. -/
theorem completes_first {command : Command} :
    (await channel command.toByte).Completes (raw :: more) payload ↔
      ∃ length data, Packet.decode raw = .ok (.initial channel command.toByte length data) ∧
        length.toNat ≤ maxPayload raw.length ∧
        (more = [] ∧ length.toNat ≤ data.length ∧ payload = data.take length.toNat ∨
          data.length < length.toNat ∧
            Completes ⟨channel, command.toByte, some ⟨length.toNat, data, 0⟩⟩ more payload) := by
  simp only [completes_cons, await_gives, ← and_assoc, await_takes]
  simp only [and_assoc]
  constructor
  · rintro (⟨hmore, length, data, hdecode, hfits, hgives⟩ |
      ⟨_, ⟨length, data, hdecode, hfits, hshort, rfl⟩, hcompletes⟩)
    · exact ⟨length, data, hdecode, hfits, .inl ⟨hmore, hgives⟩⟩
    · exact ⟨length, data, hdecode, hfits, .inr ⟨hshort, hcompletes⟩⟩
  · rintro ⟨length, data, hdecode, hfits, ⟨hmore, hgives⟩ | ⟨hshort, hcompletes⟩⟩
    · exact .inl ⟨hmore, length, data, hdecode, hfits, hgives⟩
    · exact .inr ⟨_, ⟨length, data, hdecode, hfits, hshort, rfl⟩, hcompletes⟩

/-- **What completes a message**: the packets of a payload within the limit. -/
theorem completes_await {command : Command} (hsize : initialHeaderSize < size)
    (hraws : ∀ raw ∈ raws, raw.length = size) :
    (await channel command.toByte).Completes raws payload ↔
      payload.length ≤ maxPayload size ∧
        List.Forall₂ Packet.Begins (messagePackets command.toByte channel payload size) raws := by
  have hsize' : continuationHeaderSize < size := Nat.lt_trans (by decide) hsize
  cases raws with
  | nil =>
    refine iff_of_false not_completes_nil ?_
    rintro ⟨-, hall⟩
    cases hall
  | cons raw more =>
    have hraw := hraws raw (List.mem_cons_self ..)
    have hrest {length : UInt16} {data : Bytes} (hdata : data.length = size - initialHeaderSize)
        (hshort : data.length < length.toNat) (hfits : length.toNat ≤ maxPayload size) :
        Completes ⟨channel, command.toByte, some ⟨length.toNat, data, 0⟩⟩ more payload ↔
          ∃ missing, missing.length = length.toNat - data.length ∧ payload = data ++ missing ∧
            List.Forall₂ Packet.Begins (continuations channel 0
              (Bytes.chunks (size - continuationHeaderSize) missing)) more := by
      refine completes_gathering hsize' (fun raw h => hraws raw (List.mem_cons_of_mem _ h))
        hshort ?_
      have hbound := Nat.le_trans hfits (Nat.min_le_left ..)
      rw [hdata, UInt8.toNat_zero, Nat.zero_add]
      apply Nat.le_of_lt_succ
      rw [Nat.div_lt_iff_lt_mul (Nat.sub_pos_of_lt hsize')]
      omega
    rw [completes_first, hraw]
    constructor
    · rintro ⟨length, data, hdecode, hfits, ⟨rfl, hholds, rfl⟩ | ⟨hshort, hcompletes⟩⟩
      · -- The first packet is the only one.
        have hdata := Packet.length_of_initial hdecode
        have hlength : (data.take length.toNat).length = length.toNat := by
          rw [List.length_take, Nat.min_eq_left hholds]
        refine ⟨by rwa [hlength], ?_⟩
        rw [messagePackets_of_le hsize (by omega), hlength, UInt16.ofNat_toNat]
        refine .cons ((Packet.begins_initial command.no_type_bit).2 ⟨data.drop length.toNat, ?_⟩)
          .nil
        rw [List.take_append_drop, hdecode]
      · -- The first packet is full.
        have hfull := Packet.length_of_initial hdecode
        have hdata : data.length = size - initialHeaderSize := by omega
        obtain ⟨missing, hmissing, rfl, hall⟩ := (hrest hdata hshort hfits).1 hcompletes
        have hlength : (data ++ missing).length = length.toNat := by
          rw [List.length_append]
          omega
        refine ⟨by rwa [hlength], ?_⟩
        rw [messagePackets, hlength, UInt16.ofNat_toNat, ← hdata, List.take_left, List.drop_left]
        exact .cons ((Packet.begins_initial_of_full command.no_type_bit hfull).2 hdecode) hall
    · rintro ⟨hfits, hall⟩
      have hlength := toNat_length hfits
      by_cases hsingle : payload.length ≤ size - initialHeaderSize
      · rw [messagePackets_of_le hsize hsingle] at hall
        obtain ⟨hfirst, hothers⟩ := List.forall₂_cons.1 hall
        obtain ⟨rest, hdecode⟩ := (Packet.begins_initial command.no_type_bit).1 hfirst
        refine ⟨_, _, hdecode, by rwa [hlength],
          .inl ⟨List.forall₂_nil_left_iff.1 hothers, ?_, ?_⟩⟩
        · rw [hlength, List.length_append]
          omega
        · rw [hlength, List.take_left]
      · obtain ⟨hfirst, hothers⟩ := List.forall₂_cons.1 hall
        have htake :
            (payload.take (size - initialHeaderSize)).length = size - initialHeaderSize := by
          rw [List.length_take]
          omega
        refine ⟨_, _, (Packet.begins_initial_of_full command.no_type_bit (by omega)).1 hfirst,
          by rwa [hlength], .inr ⟨by omega, (hrest htake (by omega) (by rwa [hlength])).2
            ⟨payload.drop (size - initialHeaderSize), ?_, ?_, hothers⟩⟩⟩
        · rw [List.length_drop, hlength, htake]
        · rw [List.take_append_drop]

end Reassembler

/-! ### The octets after the payload -/

/-- The octets of the packets of a payload that come after it. -/
def padding (packetSize count length : Nat) : Nat :=
  packetSize - initialHeaderSize + (count - 1) * (packetSize - continuationHeaderSize) - length

/-- Whether an octet of a packet is one of those, which are the last ones of the last packet. -/
def IsPadding (packetSize count length i j : Nat) : Prop :=
  i + 1 = count ∧ packetSize ≤ j + padding packetSize count length

instance (packetSize count length i j : Nat) : Decidable (IsPadding packetSize count length i j) :=
  inferInstanceAs (Decidable (_ ∧ _))

section

variable {size : Nat} {channel : ChannelId} {command : UInt8} {payload : Bytes} {p : Packet}

/-- The packets of a message are full, apart from the last one. -/
theorem length_octets (hsize : initialHeaderSize < size) {i : Nat}
    (h : (messagePackets command channel payload size)[i]? = some p) :
    p.octets.length = if i + 1 = (messagePackets command channel payload size).length then
      size - padding size (i + 1) payload.length else size := by
  have hlength : (messagePackets command channel payload size).length =
      (payload.length - (size - initialHeaderSize) + (size - continuationHeaderSize) - 1) /
        (size - continuationHeaderSize) + 1 := by
    rw [messagePackets, List.length_cons, length_continuations, Bytes.length_chunks,
      List.length_drop]
  have hheaders : initialHeaderSize = 7 ∧ continuationHeaderSize = 5 := ⟨rfl, rfl⟩
  rw [hlength, padding]
  cases i with
  | zero =>
    obtain rfl : _ = p := Option.some.inj h
    rw [Packet.length_octets_initial, List.length_take]
    have hsingle : (payload.length - (size - initialHeaderSize) +
        (size - continuationHeaderSize) - 1) / (size - continuationHeaderSize) = 0 ↔
          payload.length ≤ size - initialHeaderSize := by
      rw [Nat.div_eq_zero_iff]
      omega
    split_ifs <;> omega
  | succ i =>
    rw [getElem?_messagePackets_succ, Bytes.chunks, Bytes.getElem?_pieces] at h
    split_ifs at h with hi
    · obtain rfl := Option.some.inj h
      rw [Packet.length_octets_continuation, List.length_take, List.length_drop, List.length_drop]
      rw [List.length_drop] at hi
      have hk : 0 < size - continuationHeaderSize := by omega
      have hbegun : (i + 1) * (size - continuationHeaderSize) ≤
          payload.length - (size - initialHeaderSize) + (size - continuationHeaderSize) - 1 :=
        (Nat.le_div_iff_mul_le hk).1 (Nat.succ_le_of_lt hi)
      -- The last packet is the one after which no other begins.
      have hlast := Nat.le_div_iff_mul_le (k := size - continuationHeaderSize) hk (x := i + 2)
        (y := payload.length - (size - initialHeaderSize) + (size - continuationHeaderSize) - 1)
      have htwo : (i + 2) * (size - continuationHeaderSize) =
          (i + 1) * (size - continuationHeaderSize) + (size - continuationHeaderSize) :=
        Nat.succ_mul ..
      have hone : (i + 1) * (size - continuationHeaderSize) =
          i * (size - continuationHeaderSize) + (size - continuationHeaderSize) := Nat.succ_mul ..
      rw [show i + 1 + 1 - 1 = i + 1 by omega]
      split_ifs <;> omega
    · cases h

theorem Packet.begins_iff (size : Nat) {raw : Bytes} :
    p.Begins raw ↔ ∀ j < p.octets.length, raw[j]? = (p.encode size)[j]? := by
  rw [Begins, List.prefix_iff_getElem?]
  refine forall₂_congr fun j hj => ?_
  rw [encode_eq_padTo, Bytes.padTo, List.getElem?_append_left hj, List.getElem?_eq_getElem hj]

/-- Packets are those of a payload, apart from the octets after it. -/
theorem forall₂_begins_iff (hsize : initialHeaderSize < size) {raws : List Bytes} :
    List.Forall₂ Packet.Begins (messagePackets command channel payload size) raws ↔
      (messagePackets command channel payload size).length = raws.length ∧
        ∀ i < raws.length, ∀ j < size, ¬ IsPadding size raws.length payload.length i j →
          (raws[i]?.bind fun raw => raw[j]?) =
            ((messagePackets command channel payload size).map (Packet.encode size))[i]?.bind
              fun raw => raw[j]? := by
  have hlength {i : Nat} {p : Packet} := @length_octets size channel command payload p hsize i
  set packets := messagePackets command channel payload size with hpackets
  rw [List.forall₂_iff_get]
  refine and_congr_right fun hcount => ?_
  rw [hcount] at hlength
  constructor
  · intro hall i hi j hj hpayload
    have hget : packets[i]? = some (packets.get ⟨i, by omega⟩) := List.getElem?_eq_getElem _
    have hoctets := hlength hget
    have hbegins := (Packet.begins_iff size).1 (hall i (by omega) hi) j
    rw [List.getElem?_map, hget, List.getElem?_eq_getElem hi]
    refine hbegins ?_
    rw [IsPadding] at hpayload
    rw [hoctets]
    split_ifs with hlast
    · rw [hlast]
      omega
    · exact hj
  · intro hall i hi hi'
    have hget : packets[i]? = some (packets.get ⟨i, hi⟩) := List.getElem?_eq_getElem _
    have hoctets := hlength hget
    refine (Packet.begins_iff size).2 fun j hj => ?_
    rw [hoctets] at hj
    have hagree := hall i hi' j (by split_ifs at hj <;> omega)
    rw [List.getElem?_map, hget, List.getElem?_eq_getElem hi'] at hagree
    refine hagree ?_
    rintro ⟨hlast, hend⟩
    rw [if_pos hlast, hlast] at hj
    omega

end

/-- **Nothing else is accepted.** Packets of one length make up a message with a payload if and only
if the payload can be cut into as many packets of this length, and they agree with these in every
octet but those after the payload in the last packet. The length that the first packet declares is
then the length of the payload. -/
theorem completes_iff_packetized (channel : ChannelId) (command : Command) {size : Nat}
    (hsize : initialHeaderSize < size) {raws : List Bytes} (hraws : ∀ raw ∈ raws, raw.length = size)
    (payload : Bytes) :
    ((Reassembler.await channel command.toByte).Completes raws payload ↔
      ∃ packets, packetize command channel payload size = .ok packets ∧
        packets.length = raws.length ∧
        ∀ i < raws.length, ∀ j < size, ¬ IsPadding size raws.length payload.length i j →
          (raws[i]?.bind fun raw => raw[j]?) = packets[i]?.bind fun raw => raw[j]?) ∧
    ((Reassembler.await channel command.toByte).Completes raws payload →
      ∃ raw length data, raws.head? = some raw ∧
        Packet.decode raw = .ok (.initial channel command.toByte length data) ∧
        length.toNat = payload.length) := by
  have haccepted :=
    @Reassembler.completes_await payload raws channel size command hsize hraws
  constructor
  · rw [haccepted, forall₂_begins_iff hsize]
    constructor
    · rintro ⟨hfits, hcount, hall⟩
      exact ⟨_, packetize_eq_ok.2 ⟨hsize, hfits, rfl⟩, by rw [List.length_map, hcount], hall⟩
    · rintro ⟨packets, hcut, hcount, hall⟩
      obtain ⟨-, hfits, rfl⟩ := packetize_eq_ok.1 hcut
      exact ⟨hfits, by rw [← hcount, List.length_map], hall⟩
  · intro h
    obtain ⟨hfits, hall⟩ := haccepted.1 h
    cases raws with
    | nil => cases hall
    | cons raw more =>
      obtain ⟨rest, hdecode⟩ :=
        (Packet.begins_initial command.no_type_bit).1 (List.forall₂_cons.1 hall).1
      exact ⟨raw, _, _, rfl, hdecode, toNat_length hfits⟩

/-- Two packets on channel 5 that bring sixty octets to be sent back; the second one is filled with
other octets than zero. -/
def filledPing : List Bytes :=
  [[0, 0, 0, 5, 0x81, 0, 60] ++ List.replicate 57 4,
    [0, 0, 0, 5, 0, 4, 4, 4] ++ List.replicate 56 9]

/-- The payload is put together whatever fills the second packet. -/
theorem completes_iff_packetized_filled :
    initialHeaderSize < 64 ∧ (∀ raw ∈ filledPing, raw.length = 64) ∧
      (Reassembler.await 5 Command.ping.toByte).Completes filledPing (List.replicate 60 4) := by
  have hsize : initialHeaderSize < 64 := by decide
  have hraws : ∀ raw ∈ filledPing, raw.length = 64 := by decide
  refine ⟨hsize, hraws, (completes_iff_packetized 5 .ping hsize hraws _).1.2
    ⟨_, packetize_eq_ok.2 ⟨hsize, by decide, rfl⟩, rfl, ?_⟩⟩
  decide +kernel

end Ctap.Hid
