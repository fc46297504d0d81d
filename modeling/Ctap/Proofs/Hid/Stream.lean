import Ctap.Proofs.Hid.Framing

/-!
# Streams of messages

A payload within the limit is cut into packets of the size of the link, numbered in order. Whoever
puts them together pushes whatever comes into a reassembler, packet by packet; a packet that is
refused changes nothing. Messages that follow each other come through one by one, each with its last
packet, and keepalives between them are passed over.

## Main definitions

* `Packet.octets`: a packet without the zeros that fill it.
* `Reassembler.Takes`: what a reassembler takes, and what it makes of it.
* `Reassembler.Response`, `Reassembler.responses`: what comes of packets pushed in order.
* `Transmission`: a message, and the keepalives ahead of it.

## Main results

* `Reassembler.push_eq_ok`: what a push can do.
* `packetize_eq_ok`, `length_of_mem_packets`, `getElem?_packets_succ`: the packets of a message.
* `messages_come_through`: a stream of messages is put together again.
-/

namespace Ctap.Hid

/-! ### The packets of a message -/

theorem Command.no_type_bit (command : Command) : command.toByte &&& 0x80 = 0 := by
  cases command <;> rfl

theorem Command.masked (command : Command) : command.toByte &&& 0x7F = command.toByte :=
  Packet.masked_command _ command.no_type_bit

namespace Packet

/-- The octets of a packet, without the zeros that fill it. -/
def octets (p : Packet) : Bytes := p.encode 0

theorem encode_eq_padTo (size : Nat) (p : Packet) : p.encode size = Bytes.padTo size p.octets := by
  cases p <;> simp [octets, encode, Bytes.padTo, Bytes.zeros]

@[simp] theorem length_octets_initial (channel : ChannelId) (command : UInt8) (length : UInt16)
    (data : Bytes) :
    (initial channel command length data).octets.length = initialHeaderSize + data.length := by
  simp only [octets, encode, Bytes.length_padTo, List.length_append, List.length_cons,
    Bytes.length_ofUInt32, Bytes.length_ofUInt16, initialHeaderSize]
  omega

@[simp] theorem length_octets_continuation (channel : ChannelId) (seq : UInt8) (data : Bytes) :
    (continuation channel seq data).octets.length = continuationHeaderSize + data.length := by
  simp only [octets, encode, Bytes.length_padTo, List.length_append, List.length_cons,
    Bytes.length_ofUInt32, continuationHeaderSize]
  omega

theorem length_encode {size : Nat} {p : Packet} (h : p.octets.length ≤ size) :
    (p.encode size).length = size := by
  rw [encode_eq_padTo, Bytes.length_padTo]
  omega

end Packet

@[simp] theorem length_continuations (channel : ChannelId) (seq : UInt8) (pieces : List Bytes) :
    (continuations channel seq pieces).length = pieces.length := by
  induction pieces generalizing seq with
  | nil => rfl
  | cons piece pieces ih => rw [continuations, List.length_cons, ih, List.length_cons]

/-- Continuations are numbered in order. -/
theorem getElem?_continuations (channel : ChannelId) (seq : UInt8) (pieces : List Bytes) (i : Nat) :
    (continuations channel seq pieces)[i]? =
      pieces[i]?.map (.continuation channel (seq + UInt8.ofNat i)) := by
  induction pieces generalizing seq i with
  | nil => rfl
  | cons piece pieces ih =>
    cases i with
    | zero => simp [continuations]
    | succ i =>
      rw [continuations, List.getElem?_cons_succ, List.getElem?_cons_succ, ih, UInt8.ofNat_add,
        UInt8.add_assoc, UInt8.add_comm 1]
      rfl

section

variable {size : Nat} {channel : ChannelId} {command : Command} {payload : Bytes}
  {packets : List Bytes}

/-- A payload can be cut if the packets hold more than a header and it does not exceed the limit. -/
theorem packetize_eq_ok : packetize command channel payload size = .ok packets ↔
    initialHeaderSize < size ∧ payload.length ≤ maxPayload size ∧
      packets = (messagePackets command.toByte channel payload size).map (Packet.encode size) := by
  rw [packetize]
  split_ifs with hsize hlong
  · simp [Nat.not_lt.2 hsize]
  · simp [Nat.not_le.2 hlong]
  · simp [Nat.lt_of_not_le hsize, Nat.le_of_not_lt hlong, eq_comm]

theorem toNat_length (h : payload.length ≤ maxPayload size) :
    (UInt16.ofNat payload.length).toNat = payload.length := by
  have := Nat.le_trans h (Nat.min_le_right ..)
  rw [UInt16.toNat_ofNat']
  omega

theorem messagePackets_of_le (hsize : initialHeaderSize < size)
    (h : payload.length ≤ size - initialHeaderSize) (command : UInt8) :
    messagePackets command channel payload size =
      [.initial channel command (UInt16.ofNat payload.length) payload] := by
  have hk : 0 < size - continuationHeaderSize :=
    Nat.sub_pos_of_lt (Nat.lt_trans (by decide) hsize)
  rw [messagePackets, List.take_of_length_le h, List.drop_eq_nil_of_le h, Bytes.chunks_nil hk]
  rfl

/-- The continuations of a message carry the pieces that follow the first packet. -/
theorem getElem?_messagePackets_succ (command : UInt8) (channel : ChannelId) (payload : Bytes)
    (size i : Nat) : (messagePackets command channel payload size)[i + 1]? =
      (Bytes.chunks (size - continuationHeaderSize)
        (payload.drop (size - initialHeaderSize)))[i]?.map
          (.continuation channel (UInt8.ofNat i)) := by
  rw [messagePackets, List.getElem?_cons_succ, getElem?_continuations, UInt8.zero_add]

/-- The packets of a message fit. -/
theorem length_octets_le (hsize : initialHeaderSize < size) {command : UInt8} {p : Packet}
    (hp : p ∈ messagePackets command channel payload size) : p.octets.length ≤ size := by
  simp only [initialHeaderSize] at hsize
  obtain ⟨i, hi⟩ := List.mem_iff_getElem?.1 hp
  cases i with
  | zero =>
    obtain rfl : _ = p := Option.some.inj hi
    rw [Packet.length_octets_initial, List.length_take, initialHeaderSize]
    omega
  | succ i =>
    rw [getElem?_messagePackets_succ, Bytes.chunks, Bytes.getElem?_pieces] at hi
    split_ifs at hi
    · obtain rfl := Option.some.inj hi
      rw [Packet.length_octets_continuation, List.length_take, continuationHeaderSize]
      omega
    · cases hi

/-- All packets of a message are as long as the packets of the link. -/
theorem length_of_mem_packets (h : packetize command channel payload size = .ok packets) :
    ∀ raw ∈ packets, raw.length = size := by
  obtain ⟨hsize, -, rfl⟩ := packetize_eq_ok.1 h
  intro raw hraw
  obtain ⟨p, hp, rfl⟩ := List.mem_map.1 hraw
  exact Packet.length_encode (length_octets_le hsize hp)

/-- There is a first packet, and there are enough sequence numbers for the others. -/
theorem length_packets (h : packetize command channel payload size = .ok packets) :
    0 < packets.length ∧ packets.length ≤ 129 := by
  obtain ⟨hsize, hfits, rfl⟩ := packetize_eq_ok.1 h
  have hchunks := Reader.length_chunks_le hsize hfits
  rw [List.length_map, messagePackets, List.length_cons, length_continuations]
  omega

/-- The fifth octet of a packet that continues a message is its place among those that do. -/
theorem getElem?_packets_succ (h : packetize command channel payload size = .ok packets) {i : Nat}
    {raw : Bytes} (hraw : packets[i + 1]? = some raw) :
    raw[4]? = some (UInt8.ofNat i) ∧ i < 128 := by
  have hlength := (length_packets h).2
  have hi := (List.getElem?_eq_some_iff.1 hraw).1
  obtain ⟨-, -, rfl⟩ := packetize_eq_ok.1 h
  rw [List.getElem?_map, getElem?_messagePackets_succ, Option.map_map] at hraw
  obtain ⟨piece, -, rfl⟩ := Option.map_eq_some_iff.1 hraw
  exact ⟨rfl, by omega⟩

end

/-! ### What a push can do -/

namespace Reassembler

/-- What a reassembler takes, and what it makes of it. -/
inductive Takes (r : Reassembler) (raw : Bytes) : Reassembler → Option Bytes → Prop where
  | passed {length : UInt16} {data : Bytes} (idle : r.gathered = none)
    (decode : Packet.decode raw = .ok (.initial r.channel Command.keepalive.toByte length data))
    (other : Command.keepalive.toByte ≠ r.expected) : Takes r raw r none
  | begun {length : UInt16} {data : Bytes} (idle : r.gathered = none)
    (decode : Packet.decode raw = .ok (.initial r.channel r.expected length data))
    (fits : length.toNat ≤ maxPayload raw.length) :
    Takes r raw (r.settle ⟨length.toNat, data.take length.toNat, 0⟩).1
      (r.settle ⟨length.toNat, data.take length.toNat, 0⟩).2
  | continued {g : Gathered} {data : Bytes} (gathered : r.gathered = some g)
    (decode : Packet.decode raw = .ok (.continuation r.channel g.nextSeq data)) :
    Takes r raw (r.settle ⟨g.total, g.data ++ data.take (g.total - g.data.length), g.nextSeq + 1⟩).1
      (r.settle ⟨g.total, g.data ++ data.take (g.total - g.data.length), g.nextSeq + 1⟩).2

variable {r next : Reassembler} {raw payload : Bytes} {o : Option Bytes} {raws : List Bytes}

/-- **What a push can do.** -/
theorem push_eq_ok : r.push raw = .ok (next, o) ↔ r.Takes raw next o := by
  constructor
  · intro h
    rw [push] at h
    split at h
    · cases h
    · rename_i packet hdecode
      split_ifs at h with hchannel
      split at h
      · rename_i hidle
        simp only [Packet.channel] at hchannel
        subst hchannel
        rw [begin] at h
        split_ifs at h with hcommand hlong hkeepalive
        · subst hcommand
          have hbegun := Takes.begun hidle hdecode (Nat.le_of_not_lt hlong)
          rwa [Except.ok.inj h] at hbegun
        · subst hkeepalive
          cases h
          exact .passed hidle hdecode hcommand
      · cases h
      · cases h
      · rename_i g hgathered
        simp only [Packet.channel] at hchannel
        subst hchannel
        rw [extend] at h
        split_ifs at h with hseq
        subst hseq
        have hcontinued := Takes.continued hgathered hdecode
        rwa [Except.ok.inj h] at hcontinued
  · intro h
    cases h with
    | passed idle decode other =>
      simp only [push, decode, Packet.channel, if_true, idle, begin, if_neg other]
    | begun idle decode fits =>
      simp only [push, decode, Packet.channel, if_true, idle, begin, if_neg (Nat.not_lt.2 fits)]
    | continued gathered decode =>
      simp only [push, decode, Packet.channel, if_true, gathered, extend]

theorem settle_eq (r : Reassembler) (g : Gathered) : r.settle g =
    if g.data.length = g.total then ({ r with gathered := none }, some g.data)
    else ({ r with gathered := some g }, none) := rfl

/-- A reassembler that has given out a message is ready for the next one. -/
theorem Takes.ready (h : r.Takes raw next (some payload)) : next = { r with gathered := none } := by
  have hsettle {g : Gathered} (hg : (r.settle g).2 = some payload) :
      (r.settle g).1 = { r with gathered := none } := by
    rw [settle_eq] at hg ⊢
    split_ifs at hg ⊢
    rfl
  generalize hgave : some payload = gave at h
  cases h with
  | passed => cases hgave
  | begun => exact hsettle hgave.symm
  | continued => exact hsettle hgave.symm

/-- The channel and the command that are awaited do not change. -/
theorem Takes.frame (h : r.Takes raw next o) :
    next.channel = r.channel ∧ next.expected = r.expected := by
  have hsettle (g : Gathered) :
      (r.settle g).1.channel = r.channel ∧ (r.settle g).1.expected = r.expected := by
    rw [settle_eq]
    split_ifs <;> exact ⟨rfl, rfl⟩
  cases h with
  | passed => exact ⟨rfl, rfl⟩
  | begun | continued => exact hsettle _

/-! ### Packets pushed in order -/

/-- What comes of a push. -/
structure Response where
  /-- Its result: nothing yet, a payload, or an error. -/
  result : Except Link.Error (Option Bytes)
  /-- Whether a message has begun and is not complete. -/
  started : Bool

/-- The reassembler after a packet, which changes nothing if it is refused. -/
def step (r : Reassembler) (raw : Bytes) : Reassembler :=
  match r.push raw with
  | .error _ => r
  | .ok (next, _) => next

/-- The result of a push. -/
def result (r : Reassembler) (raw : Bytes) : Except Link.Error (Option Bytes) :=
  (r.push raw).map Prod.snd

/-- What comes of packets that are pushed one after the other. -/
def responses : Reassembler → List Bytes → List Response
  | _, [] => []
  | r, raw :: more => ⟨r.result raw, (r.step raw).isStarted⟩ :: responses (r.step raw) more

/-- The results of packets that are pushed one after the other. -/
def results (r : Reassembler) (raws : List Bytes) : List (Except Link.Error (Option Bytes)) :=
  (r.responses raws).map Response.result

/-- The reassembler after packets that were pushed one after the other. -/
def after (r : Reassembler) (raws : List Bytes) : Reassembler := raws.foldl step r

theorem step_of_push (h : r.push raw = .ok (next, o)) : r.step raw = next := by
  rw [step, h]

theorem result_of_push (h : r.push raw = .ok (next, o)) : r.result raw = .ok o := by
  rw [result, h]
  rfl

@[simp] theorem results_nil (r : Reassembler) : r.results [] = [] := rfl

theorem results_cons (r : Reassembler) (raw : Bytes) (more : List Bytes) :
    r.results (raw :: more) = r.result raw :: (r.step raw).results more := rfl

theorem results_append (r : Reassembler) (first more : List Bytes) :
    r.results (first ++ more) = r.results first ++ (r.after first).results more := by
  induction first generalizing r with
  | nil => rfl
  | cons raw first ih => rw [List.cons_append, results_cons, results_cons, ih]; rfl

/-- A reassembler that is not changed by any of the packets passes over all of them. -/
theorem results_of_passed (h : ∀ raw ∈ raws, r.push raw = .ok (r, none)) :
    r.results raws = List.replicate raws.length (.ok none) ∧ r.after raws = r := by
  induction raws with
  | nil => exact ⟨rfl, rfl⟩
  | cons raw raws ih =>
    have hpush := h raw (List.mem_cons_self ..)
    obtain ⟨hresults, hafter⟩ := ih fun raw hraw => h raw (List.mem_cons_of_mem _ hraw)
    rw [results_cons, after, List.foldl_cons, step_of_push hpush, result_of_push hpush]
    exact ⟨by rw [hresults]; rfl, hafter⟩

/-- Packets that bring a payload bring it with the last of them. -/
theorem results_of_feed (h : Reader.feed ⟨r, false⟩ raws = .gave payload []) :
    r.results raws = List.replicate (raws.length - 1) (.ok none) ++ [.ok (some payload)] ∧
      r.after raws = { r with gathered := none } := by
  induction raws generalizing r with
  | nil => cases h
  | cons raw more ih =>
    obtain ⟨raw', more', hcons, hpush⟩ := Reader.feed_eq_gave h
    cases hcons
    simp only [Reader.push, Bool.false_and, Bool.false_eq_true, if_false, Reader.accept] at hpush
    rcases hpush with ⟨next, hpush, rfl⟩ | ⟨next, hpush, hfeed⟩
    · -- The packet completes the message.
      split at hpush <;> cases hpush
      rename_i next hpushed
      rw [results_cons, after, List.foldl_cons, step_of_push hpushed, result_of_push hpushed]
      exact ⟨rfl, (push_eq_ok.1 hpushed).ready⟩
    · -- The message goes on.
      split at hpush <;> cases hpush
      rename_i next hpushed
      have hmore : more ≠ [] := by
        rintro rfl
        cases hfeed
      obtain ⟨hresults, hafter⟩ := ih hfeed
      obtain ⟨hchannel, hexpected⟩ := (push_eq_ok.1 hpushed).frame
      rw [results_cons, after, List.foldl_cons, step_of_push hpushed, result_of_push hpushed,
        hresults]
      refine ⟨?_, by rw [← hchannel, ← hexpected]; exact hafter⟩
      obtain ⟨second, rest, rfl⟩ := List.exists_cons_of_ne_nil hmore
      rfl

end Reassembler

/-! ### Messages that follow each other -/

/-- Whether a packet is a keepalive of a channel. -/
def IsKeepalive (channel : ChannelId) (raw : Bytes) : Prop :=
  ∃ length data, Packet.decode raw = .ok (.initial channel Command.keepalive.toByte length data)

/-- A message with a command on a channel, and the keepalives of the channel that come ahead of it;
there are none if the messages are keepalives themselves. -/
structure Transmission (channel : ChannelId) (command : Command) where
  keepalives : List Bytes
  payload : Bytes
  packetSize : Nat
  packets : List Bytes
  cut : packetize command channel payload packetSize = .ok packets
  areKeepalives : ∀ raw ∈ keepalives, IsKeepalive channel raw
  /-- There are none if they could be taken for the message. -/
  awaited : command = .keepalive → keepalives = []

namespace Transmission

variable {channel : ChannelId} {command : Command}

/-- All packets in order. -/
def raws (x : Transmission channel command) : List Bytes := x.keepalives ++ x.packets

/-- What comes of the packets: nothing until the last one brings the payload. -/
def results (x : Transmission channel command) : List (Except Link.Error (Option Bytes)) :=
  List.replicate (x.keepalives.length + (x.packets.length - 1)) (.ok none) ++
    [.ok (some x.payload)]

/-- A transmission comes through, and leaves the reassembler as it was. -/
theorem comes_through (x : Transmission channel command) :
    (Reassembler.await channel command.toByte).results x.raws = x.results ∧
      (Reassembler.await channel command.toByte).after x.raws =
        Reassembler.await channel command.toByte := by
  have hkeepalives : ∀ raw ∈ x.keepalives,
      (Reassembler.await channel command.toByte).push raw =
        .ok (Reassembler.await channel command.toByte, none) := by
    intro raw hraw
    obtain ⟨length, data, hdecode⟩ := x.areKeepalives raw hraw
    refine Reassembler.push_eq_ok.2 (.passed rfl hdecode fun hexpected => ?_)
    have hcommand : command = .keepalive := by
      have hbyte : Command.keepalive.toByte = command.toByte := hexpected.trans command.masked
      rw [← Option.some_inj, ← Command.ofByte?_toByte, ← hbyte, Command.ofByte?_toByte]
    rw [x.awaited hcommand] at hraw
    cases hraw
  have hmessage : Reader.feed ⟨Reassembler.await channel command.toByte, false⟩ x.packets =
      .gave x.payload [] := by
    obtain ⟨hsize, hfits, hpackets⟩ := packetize_eq_ok.1 x.cut
    have hfeed := Reader.feed_message hsize channel command.no_type_bit
      (show false = true → command.toByte = Command.init.toByte by simp) hfits []
    rw [List.append_nil, ← hpackets] at hfeed
    exact hfeed
  obtain ⟨hpassed, hready⟩ := Reassembler.results_of_passed hkeepalives
  obtain ⟨hgave, hagain⟩ := Reassembler.results_of_feed hmessage
  constructor
  · rw [raws, results, Reassembler.results_append, hpassed, hready, hgave, ← List.append_assoc,
      List.replicate_append_replicate]
  · rw [raws, Reassembler.after, List.foldl_append]
    change (Reassembler.after _ x.keepalives).after x.packets = _
    rw [hready, hagain]
    rfl

end Transmission

/-- **Messages come through.** A payload can be cut if and only if it does not exceed the limit of
the packet size. All packets then have this size, at most 128 of them continue the message, and they
are numbered from zero. Whatever messages follow each other on a channel, with keepalives ahead of
each, a reassembler that awaits their command gives out nothing but their payloads, each with the
last packet of its message. -/
theorem messages_come_through (channel : ChannelId) (command : Command) :
    (∀ size payload, initialHeaderSize < size →
      ((∃ packets, packetize command channel payload size = .ok packets) ↔
        payload.length ≤ maxPayload size) ∧
      ∀ packets, packetize command channel payload size = .ok packets →
        (∀ raw ∈ packets, raw.length = size) ∧ 0 < packets.length ∧ packets.tail.length ≤ 128 ∧
        ∀ i raw, packets.tail[i]? = some raw → raw[4]? = some (UInt8.ofNat i) ∧ i < 128) ∧
    ∀ stream : List (Transmission channel command),
      (Reassembler.await channel command.toByte).results (stream.flatMap Transmission.raws) =
        stream.flatMap Transmission.results := by
  refine ⟨fun size payload hsize => ⟨?_, fun packets h => ?_⟩, fun stream => ?_⟩
  · simp only [packetize_eq_ok, hsize, true_and, exists_and_left, exists_eq, and_true]
  · obtain ⟨hpos, hcount⟩ := length_packets h
    refine ⟨length_of_mem_packets h, hpos, ?_, fun i raw hraw => ?_⟩
    · rw [List.length_tail]
      omega
    · rw [List.getElem?_tail] at hraw
      exact getElem?_packets_succ h hraw
  · -- Each transmission leaves the reassembler as the next one needs it.
    induction stream with
    | nil => rfl
    | cons x stream ih =>
      obtain ⟨hresults, hafter⟩ := x.comes_through
      rw [List.flatMap_cons, List.flatMap_cons, Reassembler.results_append, hresults, hafter, ih]

/-- A message of two packets behind a keepalive, and an empty one in a packet of eight octets. -/
def pingStream : List (Transmission 5 .ping) :=
  [{ keepalives := [(Packet.initial 5 Command.keepalive.toByte 1 [keepaliveProcessing]).encode 64]
     payload := Bytes.zeros 60
     packetSize := 64
     packets := (messagePackets Command.ping.toByte 5 (Bytes.zeros 60) 64).map (Packet.encode 64)
     cut := packetize_eq_ok.2 ⟨by decide, by decide, rfl⟩
     areKeepalives := by
       intro raw hraw
       obtain rfl := List.mem_singleton.1 hraw
       exact ⟨_, _, Packet.decode_encode_initial 64 5 (by rfl) _ _⟩
     awaited := by simp },
   { keepalives := []
     payload := []
     packetSize := 8
     packets := [[0, 0, 0, 5, 0x81, 0, 0, 0]]
     cut := packetize_eq_ok.2 ⟨by decide, by decide, rfl⟩
     areKeepalives := by simp
     awaited := by simp }]

/-- Two messages of different packet sizes come through, the first of them behind a keepalive. -/
theorem messages_come_through_in_two : initialHeaderSize < 64 ∧
    (∃ packets, packetize .ping 5 (Bytes.zeros 60) 64 = .ok packets ∧
      (∀ raw ∈ packets, raw.length = 64) ∧ packets.tail.length ≤ 128) ∧
    (Reassembler.await 5 Command.ping.toByte).results (pingStream.flatMap Transmission.raws) =
      [.ok none, .ok none, .ok (some (Bytes.zeros 60)), .ok (some [])] := by
  have hsize : initialHeaderSize < 64 := by decide
  obtain ⟨hcut, hstream⟩ := messages_come_through 5 .ping
  obtain ⟨hfits, hpackets⟩ := hcut 64 (Bytes.zeros 60) hsize
  obtain ⟨packets, h⟩ := hfits.2 (by decide)
  obtain ⟨hlength, -, hcount, -⟩ := hpackets packets h
  exact ⟨hsize, ⟨packets, h, hlength, hcount⟩, hstream pingStream⟩

end Ctap.Hid
