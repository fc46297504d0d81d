import Ctap.Proofs.Gateway.Failures
import Ctap.Proofs.Gateway.Interleaving
import Ctap.Proofs.Gateway.Issuing
import Ctap.Proofs.Gateway.Replies
import Ctap.Proofs.Hid.Acceptance

/-!
# What the host is told in an exchange

An exchange begins when an idle listener takes a packet, and lasts until the listener is idle again.
What the host is told in it depends on the packets that come and on how long each of them is waited
for. A message is put together from its packets, or one of them comes late, or out of sequence, or
does not belong to it; a message that is complete is answered by what it asks for. In any case the
host is told one message on the channel of the first packet, or nothing, if it has given up the
request in flight or if a request of its own is accepted. Requests in flight go their own way
meanwhile.

## Main definitions

* `Arrival`: what comes from the host, and how long it is waited for.
* `gather`, `read`: what comes of the packets of an exchange.
* `Reply`, `Verdict`: what the host is told about a message that is complete, and in an exchange.
* `Hosted`: a gateway, and what is still to come from its host.

## Main results

* `Listener.hear_gathering`, `Listener.hear_first`: what follows from each packet.
* `respond_reply`: what is told about a message that is complete.
* `Hosted.Stands.step`, `Hosted.Stands.leads`: an exchange goes on, and comes to its end.
* `Hosted.told_is_determined`: what is told in an exchange.
-/

namespace Ctap.Gateway

open Hid (ChannelId Command ErrorCode Packet Reassembler)

variable {δ : Type}

/-! ### What comes of the packets -/

/-- What comes from the host next: a report, or the reason why none does. -/
structure Arrival where
  /-- How long the gateway has waited for it. -/
  gap : Time
  got : Except Error Bytes
deriving DecidableEq

/-- The data of the next continuation of a message, or the code for what comes in its place. -/
def pieceOf (channel : ChannelId) (count : Nat) : Except Error Bytes → Except ErrorCode Bytes
  | .error _ => .error .invalidCommand
  | .ok report =>
    match Packet.decode report with
    | .error _ => .error .invalidCommand
    | .ok packet =>
      if packet.channel = channel then
        match packet with
        | .initial .. => .error .invalidSequence
        | .continuation _ seq piece =>
          if seq.toNat = count then .ok piece else .error .invalidSequence
      else .error .invalidCommand

/-- What comes of a message of `total` octets after `count` continuations, when `data` has been
gathered: its payload, or the code for a packet that is late or is not the next one. -/
def gather (limit : Time) (channel : ChannelId) (total count : Nat) (data : Bytes) :
    List Arrival → Except ErrorCode Bytes
  | [] => if total ≤ data.length then .ok (data.take total) else .error .messageTimeout
  | a :: coming =>
    if total ≤ data.length then .ok (data.take total)
    else if limit < a.gap then .error .messageTimeout
    else
      match pieceOf channel count a.got with
      | .error code => .error code
      | .ok piece => gather limit channel total (count + 1) (data ++ piece) coming

/-- What comes of an exchange that begins with a packet: a message that is complete, or the code of
a fault. -/
def read (limit : Time) (coming : List Arrival) : Packet → Except ErrorCode Asked
  | .continuation .. => .error .invalidSequence
  | .initial channel command length data =>
    if Hid.maxMessageSize < length.toNat then .error .invalidCommand
    else (gather limit channel length.toNat 0 data coming).map (⟨channel, command, ·⟩)

/-! ### What the host is told -/

/-- A message to the host. -/
structure Message where
  command : Command
  payload : Bytes
deriving DecidableEq

/-- The message that tells the host an error code. -/
def Message.error (code : ErrorCode) : Message := ⟨.error, [code.toByte]⟩

/-- Whether reports are those of a message on a channel; there are none if there is no message. -/
def Tells (channel : ChannelId) (reports : List Bytes) : Option Message → Prop
  | none => reports = []
  | some m => Hid.packetize m.command channel m.payload Hid.reportSize = .ok reports

/-- What the host is told about a message that is complete. -/
inductive Reply (config : Config) (table : ChannelTable) (m : Asked) : Option Message → Prop where
  /-- There are no commands but INIT on the broadcast channel. -/
  | refused (broadcast : m.channel = Hid.broadcast)
    (other : Command.ofByte? m.command ≠ some .init) :
    Reply config table m (some (.error .invalidCommand))
  | nowhere (zero : m.channel = 0) : Reply config table m (some (.error .invalidChannel))
  | misshapen (init : Command.ofByte? m.command = some .init) (ordinary : m.channel ≠ 0)
    (length : m.payload.length ≠ Hid.nonceSize) :
    Reply config table m (some (.error .invalidLength))
  /-- INIT on the broadcast channel is answered with the nonce, a channel that is not in use, version
  2 of the protocol, the version of the device and its capabilities. -/
  | granted (broadcast : m.channel = Hid.broadcast) (init : Command.ofByte? m.command = some .init)
    (length : m.payload.length = Hid.nonceSize) {channel : ChannelId}
    (ordinary : channel ≠ 0 ∧ channel ≠ Hid.broadcast) (unused : channel ∉ table.issued) :
    Reply config table m (some ⟨.init, m.payload ++ Bytes.ofUInt32 channel ++ [2] ++
      config.deviceVersion ++ [config.capabilities]⟩)
  /-- INIT on another channel is answered in the same way, with this channel. -/
  | welcomed (is : m.Is .init) (length : m.payload.length = Hid.nonceSize) :
    Reply config table m (some ⟨.init, m.payload ++ Bytes.ofUInt32 m.channel ++ [2] ++
      config.deviceVersion ++ [config.capabilities]⟩)
  | echoed (is : m.Is .ping) : Reply config table m (some ⟨.ping, m.payload⟩)
  /-- There is a request in flight on the channel. -/
  | busy (is : m.Is .cbor) {id : DispatchId} (inFlight : table.dispatchOn? m.channel = some id) :
    Reply config table m (some (.error .channelBusy))
  | accepted (is : m.Is .cbor) (free : table.dispatchOn? m.channel = none) :
    Reply config table m none
  /-- The request in flight is given up, if there is one. -/
  | cancelled (is : m.Is .cancel) : Reply config table m none
  | unknown (ordinary : m.channel ≠ Hid.broadcast ∧ m.channel ≠ 0)
    (other : ¬ m.Is .init ∧ ¬ m.Is .ping ∧ ¬ m.Is .cbor ∧ ¬ m.Is .cancel) :
    Reply config table m (some (.error .invalidCommand))

/-- What the host is told in an exchange, given what has come of it, and the messages that were
complete, with the channel table of that moment. -/
inductive Verdict (config : Config) :
    Except ErrorCode Asked → List (Asked × ChannelTable) → Option Message → Prop where
  | faulty {code : ErrorCode} : Verdict config (.error code) [] (some (.error code))
  | complete {m : Asked} {table : ChannelTable} {told : Option Message}
    (reply : Reply config table m told) : Verdict config (.ok m) [(m, table)] told

variable {config : Config} {draws : List ChannelId} {now : Time} {table : ChannelTable}
  {channel : ChannelId} {command : UInt8} {payload report : Bytes} {r : Reaction} {next : Listener}

theorem tells_error (channel : ChannelId) (code : ErrorCode) :
    Tells channel [Hid.errorPacket channel code] (some (.error code)) := by
  have hone : [code.toByte].length = 1 := rfl
  rw [Tells, Message.error, packetize_of_le (by rw [hone]; decide), messageReports,
    Hid.messagePackets_of_le (by decide) (by rw [hone]; decide)]
  rfl

theorem tells_answer {command : Command} (h : payload.length ≤ Hid.maxMessageSize) :
    Tells channel (answerReports command channel payload) (some ⟨command, payload⟩) := by
  rw [Tells, answerReports_of_le h, packetize_of_le h]

/-- A welcome tells the nonce, the channel, and the versions and capabilities of the gateway. -/
theorem tells_welcome (hversion : config.deviceVersion.length = 3) {nonce : Bytes}
    (hnonce : nonce.length = Hid.nonceSize) (on : ChannelId) :
    Tells on (answerReports .init on (welcome config nonce channel).encode)
      (some ⟨.init, nonce ++ Bytes.ofUInt32 channel ++ [2] ++ config.deviceVersion ++
        [config.capabilities]⟩) := by
  have hlength : (welcome config nonce channel).encode.length = Hid.handshakeSize :=
    Hid.Welcome.length_encode hnonce hversion
  exact tells_answer (by rw [hlength]; decide)

/-- **What is told about a message that is complete.** -/
theorem respond_reply (hversion : config.deviceVersion.length = 3)
    (hfits : payload.length ≤ Hid.maxMessageSize)
    (h : respond config draws table channel command payload = some r) :
    ∃ told, Reply config table ⟨channel, command, payload⟩ told ∧ Tells channel r.reports told := by
  rw [respond] at h
  split_ifs at h with hbroadcast hinit hzero
  · subst hbroadcast
    rw [welcomeNew] at h
    split_ifs at h with hnonce
    · split at h
      · cases h
      · rename_i hallocate
        cases h
        obtain ⟨hordinary, hissue⟩ := ChannelTable.allocate_cases hallocate
        have hunused : _ ∉ table.issued := fun hissued => by
          rw [ChannelTable.issue_eq_none.2 hissued] at hissue
          cases hissue
        exact ⟨_, .granted rfl hinit hnonce hordinary hunused, tells_welcome hversion hnonce _⟩
    · cases h
      have hordinary : Hid.broadcast ≠ 0 := by decide
      exact ⟨_, .misshapen hinit hordinary hnonce, tells_error ..⟩
  · cases h
    exact ⟨_, .refused hbroadcast hinit, tells_error ..⟩
  · cases h
    exact ⟨_, .nowhere hzero, tells_error ..⟩
  · have his {c : Command} (hcommand : Command.ofByte? command = some c) :
        Asked.Is ⟨channel, command, payload⟩ c := ⟨hbroadcast, hzero, hcommand⟩
    split at h
    · rename_i hcommand
      cases h
      rw [welcomeBack]
      split_ifs with hnonce
      · exact ⟨_, .welcomed (his hcommand) hnonce, tells_welcome hversion hnonce _⟩
      · exact ⟨_, .misshapen hcommand hzero hnonce, tells_error ..⟩
    · rename_i hcommand
      cases h
      exact ⟨_, .echoed (his hcommand), tells_answer hfits⟩
    · rename_i hcommand
      cases h
      rw [accept]
      split
      · rename_i hstart
        rcases hflight : table.dispatchOn? channel with _ | id
        · rw [ChannelTable.start, hflight] at hstart
          cases hstart
        · exact ⟨_, .busy (his hcommand) hflight, tells_error ..⟩
      · rename_i hstart
        exact ⟨_, .accepted (his hcommand) (ChannelTable.start_eq_some.1 hstart).1, rfl⟩
    · rename_i hcommand
      cases h
      exact ⟨_, .cancelled (his hcommand), rfl⟩
    · rename_i hinit hping hcbor hcancel
      cases h
      exact ⟨_, .unknown ⟨hbroadcast, hzero⟩ ⟨fun is => hinit is.2.2, fun is => hping is.2.2,
        fun is => hcbor is.2.2, fun is => hcancel is.2.2⟩, tells_error ..⟩

/-- There is a reply, if there is a channel to be handed out to a host that asks for one. -/
theorem exists_respond (config : Config) (channel : ChannelId) (command : UInt8)
    (h : payload.length = Hid.nonceSize → (table.allocate draws).isSome) :
    ∃ r, respond config draws table channel command payload = some r := by
  rw [respond]
  split_ifs
  · rw [welcomeNew]
    split_ifs with hnonce
    · obtain ⟨⟨c, next⟩, hallocate⟩ := Option.isSome_iff_exists.1 (h hnonce)
      exact ⟨_, by rw [hallocate]⟩
    · exact ⟨_, rfl⟩
  · exact ⟨_, rfl⟩
  · exact ⟨_, rfl⟩
  · split <;> exact ⟨_, rfl⟩

/-! ### What follows from a packet -/

/-- A reassembler that has gathered `data` of a message after `count` continuations. -/
def held (channel : ChannelId) (command : UInt8) (total count : Nat) (data : Bytes) : Reassembler :=
  ⟨channel, command, some ⟨total, data, UInt8.ofNat count⟩⟩

variable {limit : Time} {total count : Nat} {data piece : Bytes} {code : ErrorCode}

/-- The next continuation is the one with the next number. -/
theorem pieceOf_eq_ok : pieceOf channel count (.ok report) = .ok piece ↔
    ∃ seq, Packet.decode report = .ok (.continuation channel seq piece) ∧ seq.toNat = count := by
  rw [pieceOf]
  constructor
  · intro h
    split at h
    · cases h
    · rename_i packet hdecode
      split_ifs at h with hchannel
      split at h
      · cases h
      · rename_i hpacket
        split_ifs at h with hseq
        cases h
        cases hchannel
        exact ⟨_, hdecode, hseq⟩
  · rintro ⟨seq, hdecode, rfl⟩
    rw [hdecode]
    simp [Packet.channel]

theorem count_lt (h : pieceOf channel count (.ok report) = .ok piece) : count < 128 := by
  obtain ⟨seq, hdecode, rfl⟩ := pieceOf_eq_ok.1 h
  exact Packet.toNat_lt_of_no_type_bit (Packet.decode_eq_continuation.1 hdecode).1

/-- **The next continuation** completes the message, or is added to what has been gathered. -/
theorem push_piece (hmissing : data.length < total)
    (h : pieceOf channel count (.ok report) = .ok piece) :
    (held channel command total count data).push report =
      if total ≤ (data ++ piece).length then
        .ok (⟨channel, command, none⟩, some ((data ++ piece).take total))
      else .ok (held channel command total (count + 1) (data ++ piece), none) := by
  obtain ⟨seq, hdecode, rfl⟩ := pieceOf_eq_ok.1 h
  have hnext : seq = UInt8.ofNat seq.toNat := UInt8.ofNat_toNat.symm
  rw [held, Reassembler.push, hdecode]
  simp only [Packet.channel, if_pos, Reassembler.extend, if_pos hnext, Reassembler.settle_eq]
  have hcut : (data ++ piece).take total = data ++ piece.take (total - data.length) := by
    rw [List.take_append, List.take_of_length_le (Nat.le_of_lt hmissing)]
  rw [List.length_append, List.length_append, List.length_take, hcut]
  by_cases hwhole : total ≤ data.length + piece.length
  · rw [if_pos hwhole, if_pos (by omega)]
  · rw [if_neg hwhole, if_neg (by omega), List.take_of_length_le (by omega), held]
    simp

private theorem decode_eq_error {cause : Link.Error} (h : Packet.decode report = .error cause) :
    cause = Packet.shortHeader := by
  unfold Packet.decode at h
  split at h
  · split_ifs at h
    split at h <;> cases h
    rfl
  · cases h
    rfl

/-- **Anything else** in its place is a fault. -/
theorem push_fault (command : UInt8) (total : Nat) (data : Bytes) (hcount : count ≤ 128)
    (h : pieceOf channel count (.ok report) = .error code) :
    ∃ cause, (held channel command total count data).push report = .error cause ∧
      codeOf cause = code := by
  rw [pieceOf] at h
  rw [held, Reassembler.push]
  rcases hdecode : Packet.decode report with cause | packet
  · rw [hdecode] at h
    cases h
    exact ⟨cause, rfl, by rw [decode_eq_error hdecode]; rfl⟩
  · rw [hdecode] at h
    simp only at h ⊢
    split_ifs at h with hchannel
    · split at h
      · cases h
        simp only [if_pos hchannel]
        exact ⟨_, rfl, rfl⟩
      · rename_i c seq piece
        split_ifs at h with hseq
        cases h
        have hother : seq ≠ UInt8.ofNat count := by
          rintro rfl
          exact hseq (by rw [UInt8.toNat_ofNat']; omega)
        simp only [if_pos hchannel, Reassembler.extend, if_neg hother]
        exact ⟨_, rfl, rfl⟩
    · cases h
      simp only [if_neg hchannel]
      exact ⟨_, rfl, rfl⟩

/-- **The first packet** completes the message, or is the beginning of it, unless the message is too
long. -/
theorem push_first {length : UInt16} (hfull : report.length = Hid.reportSize)
    (h : Packet.decode report = .ok (.initial channel command length data)) :
    (Reassembler.await channel command).push report =
      if Hid.maxMessageSize < length.toNat then .error (.messageTooLarge length.toNat)
      else if length.toNat ≤ data.length then
        .ok (⟨channel, command, none⟩, some (data.take length.toNat))
      else .ok (held channel command length.toNat 0 data, none) := by
  have hlimit : Hid.maxPayload report.length = Hid.maxMessageSize := by rw [hfull]; rfl
  rw [Reassembler.await, Packet.masked_command command (Packet.decode_eq_initial.1 h).1,
    Reassembler.push, h]
  simp only [Packet.channel, if_pos, Reassembler.begin, hlimit, Reassembler.settle_eq,
    List.length_take]
  by_cases hlong : Hid.maxMessageSize < length.toNat
  · rw [if_pos hlong, if_pos hlong]
  · rw [if_neg hlong, if_neg hlong]
    by_cases hwhole : length.toNat ≤ data.length
    · rw [if_pos hwhole, if_pos (by omega)]
    · rw [if_neg hwhole, if_neg (by omega), List.take_of_length_le (by omega)]
      rfl

/-! ### A gateway and its host -/

/-- A gateway, and what is still to come from its host. -/
structure Hosted (δ : Type) where
  gateway : System δ
  /-- When the last packet came. -/
  since : Time
  coming : List Arrival

namespace Hosted

/-- How long the gateway waits for a packet in the middle of a message. -/
def patience (s : Hosted δ) : Time := s.gateway.config.continuationTimeout

/-- What is still to come after what comes at an instant, if it comes then, and not too late. -/
def take? (s : Hosted δ) (now : Time) (got : Except Error Bytes) : Option (Time × List Arrival) :=
  match s.coming with
  | [] => none
  | a :: coming =>
    if a.got = got ∧ a.gap ≤ s.patience ∧ now = s.since + a.gap then some (now, coming) else none

/-- Whether the next packet comes too late, or never. -/
def isLate (s : Hosted δ) : Bool := s.coming.head?.all fun a => s.patience < a.gap

/-- What is still to come after an event, and since when it is waited for. Nothing that the gateway
sends as a reply is lost. -/
def after? (s : Hosted δ) (now : Time) : Event δ → Option (Time × List Arrival)
  | .heard report _ => s.take? now (.ok report)
  | .failed cause => s.take? now (.error cause)
  | .missed => if s.isLate then some (s.since, s.coming) else none
  | .undelivered .listener => none
  | _ => some (s.since, s.coming)

/-- The state after an event at an instant. -/
def step? (s : Hosted δ) (now : Time) (e : Event δ) : Option (Hosted δ) :=
  (s.after? now e).bind fun r =>
    (s.gateway.step? now e).map fun gateway => { gateway, since := r.1, coming := r.2 }

instance : Machine (Hosted δ) (Time × Event δ) where
  next? s e := s.step? e.1 e.2

/-- The rule that the exchange is not over. -/
def lasting (s : Hosted δ) (_ : Time × Event δ) : Bool := !(s.gateway.listener matches .idle)

/-- The reports that are sent as a reply. -/
def told (s : Hosted δ) (e : Time × Event δ) : List Bytes :=
  match e.2 with
  | .delivered .listener => (s.gateway.pendingReport? .listener).toList
  | _ => []

/-- The messages that are complete, with the channel table of that moment. -/
def completed (s : Hosted δ) (e : Time × Event δ) : List (Asked × ChannelTable) :=
  match e.2 with
  | .heard report _ => (s.gateway.listener.completes report).toList.map (·, s.gateway.table)
  | _ => []

/-- Whether `data` has been gathered of a message of `total` octets after `count` continuations, and
the exchange comes to `outcome` with what is still to come. -/
structure Missing (limit : Time) (coming : List Arrival) (channel : ChannelId) (command : UInt8)
    (outcome : Except ErrorCode Asked) (total count : Nat) (data : Bytes) : Prop where
  missing : data.length < total
  fits : total ≤ Hid.maxMessageSize
  /-- What the first packet brings is longer than a nonce. -/
  begun : Hid.nonceSize ≤ data.length
  /-- Sequence numbers do not run out before the last continuation. -/
  few : count ≤ 128
  comesTo : outcome = (gather limit channel total count data coming).map (⟨channel, command, ·⟩)

/-- What a packet makes of a message, if the exchange comes to `outcome` with what is still to
come. -/
inductive Pushed (limit : Time) (coming : List Arrival) (channel : ChannelId) (command : UInt8)
    (outcome : Except ErrorCode Asked) : Except Link.Error (Reassembler × Option Bytes) → Prop where
  | faulty {cause : Link.Error} (comesTo : outcome = .error (codeOf cause)) :
    Pushed limit coming channel command outcome (.error cause)
  | whole {r : Reassembler} {payload : Bytes} (fits : payload.length ≤ Hid.maxMessageSize)
    (comesTo : outcome = .ok ⟨channel, command, payload⟩) :
    Pushed limit coming channel command outcome (.ok (r, some payload))
  | more {total count : Nat} {data : Bytes}
    (missing : Missing limit coming channel command outcome total count data) :
    Pushed limit coming channel command outcome
      (.ok (held channel command total count data, none))

/-- How far it has got with an exchange on a channel that comes to `outcome`: after `asked` was
complete, and `sent` was sent. -/
inductive Stands (config : Config) (channel : ChannelId) (outcome : Except ErrorCode Asked)
    (s : Hosted δ) (asked : List (Asked × ChannelTable)) (sent : List Bytes) : Prop where
  | gathering {command : UInt8} {total count : Nat} {data : Bytes}
    (listener : s.gateway.listener = .gathering
      ⟨channel, command, held channel command total count data⟩ (s.since + s.patience))
    (settings : s.gateway.config = config)
    (missing : Missing s.patience s.coming channel command outcome total count data)
    (unasked : asked = []) (silent : sent = [])
  | replying {rest : List Bytes} {message : Option Message}
    (listener : s.gateway.listener = .reply rest) (verdict : Verdict config outcome asked message)
    (tells : Tells channel (sent ++ rest) message)

variable {s t : Hosted δ} {e : Event δ} {outcome : Except ErrorCode Asked} {m : Inbound}
  {a : Arrival} {coming : List Arrival} {asked : List (Asked × ChannelTable)} {sent : List Bytes}

/-- What a report completes is what its reassembly gives out. -/
theorem completes_of_inbound {l : Listener} (h : l.inbound? report = some m) :
    l.completes report = (Listener.completed (m.reassembler.push report)).map
      (⟨m.channel, m.command, ·⟩) := by
  cases l with
  | idle =>
    rw [Listener.inbound?] at h
    split at h
    · rename_i hdecode
      cases h
      rw [Listener.completes, hdecode]
    · cases h
  | gathering message deadline =>
    cases h
    rfl
  | replying | stopped => cases h

/-- **What follows from a packet** of the message. -/
theorem Stands.of_heard {r : Reassembler} {gateway : System δ}
    (hversion : s.gateway.config.deviceVersion.length = 3)
    (hinbound : s.gateway.listener.inbound? report = some ⟨channel, command, r⟩)
    (hpushed : Pushed s.patience coming channel command outcome (r.push report))
    (h : s.gateway.step? now (.heard report draws) = some gateway) :
    Stands s.gateway.config channel outcome ⟨gateway, now, coming⟩
      (s.completed (now, .heard report draws)) [] := by
  obtain ⟨⟨next, reaction⟩, hhear, rfl⟩ := Option.map_eq_some_iff.1 h
  rw [Listener.hear_of_inbound hinbound] at hhear
  simp only [completed, completes_of_inbound hinbound]
  generalize r.push report = pushed at hpushed hhear
  cases hpushed with
  | faulty comesTo =>
    cases hhear
    exact .replying rfl (comesTo ▸ .faulty) (tells_error ..)
  | @whole r payload fits comesTo =>
    obtain ⟨reaction, hrespond, hnext⟩ := Option.map_eq_some_iff.1 hhear
    cases hnext
    obtain ⟨message, hreply, htells⟩ := respond_reply hversion fits hrespond
    exact .replying rfl (comesTo ▸ .complete hreply) htells
  | more missing =>
    cases hhear
    exact .gathering rfl rfl missing rfl rfl

/-- A packet that comes too late, or never, leaves the message incomplete. -/
theorem Missing.late (h : Missing limit coming channel command outcome total count data)
    (hlate : coming.head?.all (fun a => limit < a.gap) = true) :
    outcome = .error .messageTimeout := by
  rw [h.comesTo]
  cases coming with
  | nil => rw [gather, if_neg (Nat.not_le_of_lt h.missing)]; rfl
  | cons a coming =>
    rw [gather, if_neg (Nat.not_le_of_lt h.missing), if_pos (by simpa using hlate)]
    rfl

theorem Missing.failed {cause : Error}
    (h : Missing limit (a :: coming) channel command outcome total count data)
    (hgap : a.gap ≤ limit) (hgot : a.got = .error cause) : outcome = .error .invalidCommand := by
  rw [h.comesTo, gather, if_neg (Nat.not_le_of_lt h.missing), if_neg (Nat.not_lt_of_le hgap), hgot]
  rfl

/-- **What becomes of a message** when the next packet comes in time. -/
theorem Missing.pushed (h : Missing limit (a :: coming) channel command outcome total count data)
    (hgap : a.gap ≤ limit) (hgot : a.got = .ok report) :
    Pushed limit coming channel command outcome
      ((held channel command total count data).push report) := by
  have hcomes := h.comesTo
  rw [gather, if_neg (Nat.not_le_of_lt h.missing), if_neg (Nat.not_lt_of_le hgap), hgot] at hcomes
  rcases hpiece : pieceOf channel count (.ok report) with code | piece
  · rw [hpiece] at hcomes
    obtain ⟨cause, hpush, rfl⟩ := push_fault command total data h.few hpiece
    rw [hpush]
    exact .faulty hcomes
  · rw [hpiece] at hcomes
    rw [push_piece h.missing hpiece]
    split_ifs with hwhole
    · refine .whole ?_ ?_
      · rw [List.length_take]
        exact Nat.le_trans (Nat.min_le_left ..) h.fits
      · rw [hcomes]
        cases coming <;> simp only [gather, if_pos hwhole] <;> rfl
    · have := h.begun
      refine .more ⟨Nat.lt_of_not_le hwhole, h.fits, ?_, count_lt hpiece, hcomes⟩
      rw [List.length_append]
      omega

/-- A message of several packets is longer than a nonce. -/
theorem Missing.not_nonce (h : Missing limit coming channel command outcome total count data)
    {r : Reassembler}
    (hpush : (held channel command total count data).push report = .ok (r, some payload)) :
    payload.length ≠ Hid.nonceSize := by
  rcases hpiece : pieceOf channel count (.ok report) with code | piece
  · obtain ⟨cause, hfault, -⟩ := push_fault command total data h.few hpiece
    rw [hfault] at hpush
    cases hpush
  · rw [push_piece h.missing hpiece] at hpush
    split_ifs at hpush with hwhole
    · cases hpush
      have hbegun := h.begun
      have hmissing := h.missing
      rw [List.length_take]
      omega
    · cases hpush

/-! ### The steps of an exchange -/

private theorem aside {id : DispatchId} (now : Time) (h : e.subject? = some id) :
    s.after? now e = some (s.since, s.coming) ∧ s.completed (now, e) = [] ∧
      s.told (now, e) = [] := by
  cases e with
  | heard | missed | failed | shutdown => cases h
  | delivered sender | undelivered sender =>
    cases sender with
    | listener => cases h
    | dispatch id => exact ⟨rfl, rfl, rfl⟩
  | _ => exact ⟨rfl, rfl, rfl⟩

private theorem take?_eq_some {got : Except Error Bytes} {r : Time × List Arrival}
    (h : s.take? now got = some r) :
    ∃ a, s.coming = a :: r.2 ∧ a.got = got ∧ a.gap ≤ s.patience ∧ now = s.since + a.gap ∧
      r.1 = now := by
  rw [take?] at h
  split at h
  · cases h
  · rename_i a coming hcoming
    split_ifs at h with hcomes
    cases h
    exact ⟨a, hcoming, hcomes.1, hcomes.2.1, hcomes.2.2, rfl⟩

private theorem Stands.of_missed {gateway : System δ} (cause : Link.Error) {deadline : Time}
    {r : Reassembler} {since : Time}
    (hl : s.gateway.listener = .gathering ⟨channel, command, r⟩ deadline)
    (houtcome : outcome = .error (codeOf cause))
    (h : (s.gateway.listener.miss s.gateway.table cause).map
      (fun r => s.gateway.react now r.1 r.2) = some gateway) :
    Stands config channel outcome ⟨gateway, since, coming⟩ [] [] := by
  rw [hl] at h
  cases h
  exact .replying rfl (houtcome ▸ .faulty) (tells_error ..)

/-- **An exchange goes on**, whatever happens. -/
theorem Stands.step (hversion : config.deviceVersion.length = 3)
    (hs : Stands config channel outcome s asked sent) (hlasting : lasting s (now, e) = true)
    (h : s.step? now e = some t) :
    Stands config channel outcome t (asked ++ s.completed (now, e)) (sent ++ s.told (now, e)) := by
  obtain ⟨⟨since, coming⟩, hafter, h⟩ := Option.bind_eq_some_iff.1 h
  obtain ⟨gateway, hstep, rfl⟩ := Option.map_eq_some_iff.1 h
  rcases hsubject : e.subject? with _ | id
  · cases hs with
    | @gathering command total count data listener settings missing unasked silent =>
      subst unasked silent settings
      cases e with
      | heard report draws =>
        obtain ⟨a, hcoming, hgot, hgap, rfl, rfl⟩ := take?_eq_some hafter
        rw [hcoming] at missing
        have hinbound : s.gateway.listener.inbound? report =
            some ⟨channel, command, held channel command total count data⟩ := by
          rw [listener]
          rfl
        exact .of_heard hversion hinbound (missing.pushed hgap hgot) hstep
      | failed cause =>
        obtain ⟨a, hcoming, hgot, hgap, rfl, rfl⟩ := take?_eq_some hafter
        rw [hcoming] at missing
        rw [System.step?, System.hangUp] at hstep
        split at hstep
        · rename_i hidle
          rw [listener] at hidle
          cases hidle
        · exact .of_missed .disconnected listener (missing.failed hgap hgot) hstep
      | missed =>
        rw [after?] at hafter
        split_ifs at hafter with hlate
        rw [System.step?, System.tire] at hstep
        split at hstep
        · split_ifs at hstep
          exact .of_missed .timeout listener (missing.late hlate) hstep
        · cases hstep
      | shutdown =>
        rw [System.step?, listener] at hstep
        cases hstep
      | delivered sender | undelivered sender =>
        cases sender with
        | dispatch id => cases hsubject
        | listener =>
          rw [System.step?, listener] at hstep
          cases hstep
      | _ => cases hsubject
    | @replying rest message listener verdict tells =>
      rcases rest with _ | ⟨report, rest⟩
      · rw [lasting, listener] at hlasting
        cases hlasting
      · cases e with
        | delivered sender =>
          cases sender with
          | dispatch id => cases hsubject
          | listener =>
            rw [System.step?, listener] at hstep
            cases hstep
            refine .replying rfl (by rwa [completed, List.append_nil]) ?_
            rwa [told, System.pendingReport?, listener, List.append_assoc]
        | undelivered sender =>
          cases sender with
          | dispatch id => cases hsubject
          | listener => cases hafter
        | heard | missed | failed | shutdown =>
          simp only [System.step?, System.tire, System.hangUp, listener] at hstep
          cases hstep
        | _ => cases hsubject
  -- Events of a request leave the listener and what is still to come as they are.
  · obtain ⟨hsame, hcompleted, htold⟩ := aside (s := s) now hsubject
    cases hsame.symm.trans hafter
    have hlistener : gateway.listener = s.gateway.listener :=
      ((System.listener_cases hstep).resolve_right fun hown => by
        rw [hsubject] at hown
        cases hown.1).2
    have hconfig := System.config_step hstep
    rw [hcompleted, htold, List.append_nil, List.append_nil]
    cases hs with
    | gathering listener settings missing unasked silent =>
      have hpatience : patience ⟨gateway, s.since, s.coming⟩ = s.patience := by
        rw [patience, patience, hconfig]
      exact .gathering (by rw [hpatience]; exact hlistener.trans listener) (hconfig.trans settings)
        (by rwa [hpatience]) unasked silent
    | replying listener verdict tells => exact .replying (hlistener.trans listener) verdict tells

/-! ### The end of an exchange -/

/-- A packet of a message can be taken, if a channel can be handed out where one is needed. -/
theorem exists_heard {s : System δ} (draws : List ChannelId) {m : Inbound}
    (hinbound : s.listener.inbound? report = some m)
    (hdraws : ∀ r payload, m.reassembler.push report = .ok (r, some payload) →
      payload.length = Hid.nonceSize → (s.table.allocate draws).isSome) (now : Time) :
    ∃ t, s.step? now (.heard report draws) = some t := by
  rw [System.step?, Listener.hear_of_inbound hinbound]
  rcases hpush : m.reassembler.push report with cause | ⟨r, _ | payload⟩
  · exact ⟨_, rfl⟩
  · exact ⟨_, rfl⟩
  · obtain ⟨reaction, hrespond⟩ := exists_respond s.config m.channel m.command
      (hdraws r payload hpush)
    exact ⟨_, by rw [Listener.proceed, hrespond]; rfl⟩

private theorem leads_replying {rest : List Bytes} (h : s.gateway.listener = .reply rest) :
    ∃ t, Machine.Leads lasting s t ∧ t.gateway.listener = .idle := by
  induction rest generalizing s with
  | nil => exact ⟨s, .refl s, h⟩
  | cons report rest ih =>
    have hstep : Machine.next? s ((0 : Time), Event.delivered .listener) =
        some { s with gateway := { s.gateway with listener := .reply rest } } := by
      simp [Machine.next?, step?, after?, System.step?, h, Listener.reply]
    obtain ⟨t, hleads, hidle⟩ :=
      ih (s := { s with gateway := { s.gateway with listener := _ } }) rfl
    exact ⟨t, hleads.head (by rw [lasting, h]; rfl) hstep, hidle⟩

private theorem leads_late (h : s.gateway.listener = .gathering m (s.since + s.patience))
    (hlate : s.isLate = true) : ∃ t, Machine.Leads lasting s t ∧ t.gateway.listener = .idle := by
  obtain ⟨gateway, hstep, hreplying⟩ : ∃ gateway : System δ,
      s.gateway.step? (s.since + s.patience) .missed = some gateway ∧
        gateway.listener = .reply [Hid.errorPacket m.channel .messageTimeout] := by
    refine ⟨s.gateway.react (s.since + s.patience) (.reply [_])
      (.error s.gateway.table m.channel .messageTimeout), ?_, rfl⟩
    rw [System.step?, System.tire, h]
    exact if_pos (Nat.le_refl _)
  have hnext : s.step? (s.since + s.patience) .missed = some ⟨gateway, s.since, s.coming⟩ := by
    rw [step?, after?, if_pos hlate, Option.bind_some, hstep, Option.map_some]
  obtain ⟨t, hleads, hidle⟩ := leads_replying (s := ⟨gateway, s.since, s.coming⟩) hreplying
  exact ⟨t, hleads.head (e := (s.since + s.patience, .missed)) (by rw [lasting, h]; rfl) hnext,
    hidle⟩

private theorem exists_taken {deadline : Time}
    (hl : s.gateway.listener = .gathering
      ⟨channel, command, held channel command total count data⟩ deadline)
    (h : Missing s.patience s.coming channel command outcome total count data)
    (hcoming : s.coming = a :: coming) (hgap : a.gap ≤ s.patience) :
    ∃ e gateway, s.after? (s.since + a.gap) e = some (s.since + a.gap, coming) ∧
      s.gateway.step? (s.since + a.gap) e = some gateway := by
  have htake {got : Except Error Bytes} (hgot : a.got = got) :
      s.take? (s.since + a.gap) got = some (s.since + a.gap, coming) := by
    simp [take?, hcoming, hgot, hgap]
  rcases hgot : a.got with cause | report
  · refine ⟨.failed cause, ?_⟩
    rw [System.step?, System.hangUp, hl]
    exact ⟨_, htake hgot, rfl⟩
  · have hinbound : s.gateway.listener.inbound? report =
        some ⟨channel, command, held channel command total count data⟩ := by
      rw [hl]
      rfl
    obtain ⟨gateway, hstep⟩ := exists_heard [] hinbound
      (fun r payload hpush hnonce => absurd hnonce (h.not_nonce hpush)) (s.since + a.gap)
    exact ⟨.heard report [], gateway, htake hgot, hstep⟩

/-- **An exchange comes to its end.** -/
theorem Stands.leads (hversion : config.deviceVersion.length = 3)
    (hs : Stands config channel outcome s asked sent) :
    ∃ t, Machine.Leads lasting s t ∧ t.gateway.listener = .idle := by
  generalize hcoming : s.coming = coming
  induction coming generalizing s asked sent with
  | nil =>
    cases hs with
    | replying listener => exact leads_replying listener
    | gathering listener => exact leads_late listener (by rw [isLate, hcoming]; rfl)
  | cons a coming ih =>
    cases hs with
    | replying listener => exact leads_replying listener
    | @gathering command total count data listener settings missing unasked silent =>
      by_cases hlate : s.patience < a.gap
      · exact leads_late listener (by simpa [isLate, hcoming] using hlate)
      · -- The next packet is taken, and there is one less to come.
        have hlasting (e : Time × Event δ) : lasting s e = true := by rw [lasting, listener]; rfl
        obtain ⟨e, gateway, hafter, hstep⟩ := exists_taken listener missing hcoming
          (Nat.le_of_not_lt hlate)
        have hnext : s.step? (s.since + a.gap) e = some ⟨gateway, s.since + a.gap, coming⟩ := by
          rw [step?, hafter, Option.bind_some, hstep, Option.map_some]
        have ht := (Stands.gathering listener settings missing unasked silent).step hversion
          (hlasting _) hnext
        obtain ⟨t, hleads, hidle⟩ := ih ht rfl
        exact ⟨t, hleads.head (e := (s.since + a.gap, e)) (hlasting _) hnext, hidle⟩

/-! ### What is told -/

/-- A gateway whose host has just sent a first packet. -/
def start (s : System δ) (now : Time) (first : Bytes) (coming : List Arrival) : Hosted δ :=
  ⟨s, now, ⟨0, .ok first⟩ :: coming⟩

variable {gateway : System δ} {first : Bytes}

private theorem exists_decode (h : Hid.initialHeaderSize ≤ first.length) :
    ∃ packet, Packet.decode first = .ok packet := by
  match first, h with
  | a :: b :: c :: d :: tag :: hi :: lo :: data, _ =>
    rw [Packet.decode]
    split_ifs <;> exact ⟨_, rfl⟩

/-- A first packet is taken, if a channel can be handed out. -/
theorem exists_start (hidle : gateway.listener = .idle) {packet : Packet}
    (hdecode : Packet.decode first = .ok packet)
    (hdraws : ∃ c ∈ draws, ¬ gateway.table.Refuses c) (now : Time) (coming : List Arrival) :
    ∃ t, (start gateway now first coming).step? now (.heard first draws) = some t := by
  have hallocate := ChannelTable.isSome_allocate hdraws
  have hheard : ∃ t, gateway.step? now (.heard first draws) = some t := by
    cases packet with
    | initial channel command length data =>
      have hinbound : gateway.listener.inbound? first =
          some ⟨channel, command, .await channel command⟩ := by
        rw [hidle, Listener.inbound?, hdecode]
      exact exists_heard draws hinbound (fun _ _ _ _ => hallocate) now
    | continuation channel seq data =>
      rw [System.step?, hidle, Listener.hear, Listener.begin, hdecode]
      exact ⟨_, rfl⟩
  obtain ⟨t, ht⟩ := hheard
  refine ⟨⟨t, now, coming⟩, ?_⟩
  simp [step?, start, after?, take?, ht]

/-- **An exchange begins** with any packet. -/
theorem stands_start (hversion : gateway.config.deviceVersion.length = 3)
    (hidle : gateway.listener = .idle) (hfull : first.length = Hid.reportSize) {packet : Packet}
    (hdecode : Packet.decode first = .ok packet) {coming : List Arrival}
    (h : (start gateway now first coming).step? now (.heard first draws) = some t) :
    Stands gateway.config packet.channel (read gateway.config.continuationTimeout coming packet) t
      ((start gateway now first coming).completed (now, .heard first draws)) [] := by
  obtain ⟨⟨since, rest⟩, hafter, h⟩ := Option.bind_eq_some_iff.1 h
  obtain ⟨next, hstep, rfl⟩ := Option.map_eq_some_iff.1 h
  have htake : (start gateway now first coming).take? now (.ok first) = some (since, rest) := hafter
  obtain ⟨a, hcoming, -, -, -, rfl⟩ := take?_eq_some htake
  cases hcoming
  cases packet with
  | initial channel command length data =>
    have hinbound : gateway.listener.inbound? first =
        some ⟨channel, command, .await channel command⟩ := by
      rw [hidle, Listener.inbound?, hdecode]
    refine .of_heard (s := start gateway since first rest) hversion hinbound ?_ hstep
    have hdata := Packet.length_of_initial hdecode
    rw [push_first hfull hdecode, read]
    split_ifs with hlong hwhole
    · exact .faulty rfl
    · refine .whole ?_ ?_
      · rw [List.length_take]
        omega
      · cases rest <;> simp only [gather, if_pos hwhole] <;> rfl
    · refine .more ⟨Nat.lt_of_not_le hwhole, Nat.le_of_not_lt hlong, ?_, Nat.zero_le _, rfl⟩
      have hsize : Hid.reportSize = 64 ∧ Hid.initialHeaderSize = 7 ∧ Hid.nonceSize = 8 :=
        ⟨rfl, rfl, rfl⟩
      omega
  | continuation channel seq data =>
    have hhear : gateway.listener.hear gateway.config draws since gateway.table first =
        some (.reply [Hid.errorPacket channel .invalidSequence],
          .error gateway.table channel .invalidSequence) := by
      rw [hidle, Listener.hear, Listener.begin, hdecode]
      rfl
    have hnone : gateway.listener.completes first = none := by
      rw [hidle, Listener.completes, hdecode]
    simp only [start, System.step?, hhear, Option.map_some, Option.some.injEq] at hstep
    subst hstep
    refine .replying rfl ?_ (tells_error ..)
    simp only [completed, start, hnone]
    exact .faulty

/-- **What the host is told in an exchange is determined** by its packets, and by what the channel
table is when a message is complete. Whatever first packet an idle listener takes, the host is told
exactly one message on its channel, or none if the message is CANCEL or a request that is accepted.
The first packet can be taken whatever it is; whatever happens to requests meanwhile, the exchange
comes to its end. -/
theorem told_is_determined (s : System δ) (hversion : s.config.deviceVersion.length = 3)
    (hidle : s.listener = .idle) {first : Bytes} (hfull : first.length = Hid.reportSize)
    (now : Time) (coming : List Arrival) :
    ∃ packet, Packet.decode first = .ok packet ∧
      (∀ draws, (∃ c ∈ draws, ¬ s.table.Refuses c) →
        ∃ t, (start s now first coming).step? now (.heard first draws) = some t) ∧
      ∀ draws events t u, (start s now first coming).step? now (.heard first draws) = some t →
        Machine.run? lasting t events = some u →
        (∃ v, Machine.Leads lasting u v ∧ v.gateway.listener = .idle) ∧
        (u.gateway.listener = .idle → ∃ message,
          Verdict s.config (read s.config.continuationTimeout coming packet)
            (Machine.observe completed (start s now first coming)
              ((now, .heard first draws) :: events)) message ∧
          Tells packet.channel
            (Machine.observe told (start s now first coming)
              ((now, .heard first draws) :: events)) message) := by
  obtain ⟨packet, hdecode⟩ := exists_decode (hfull.symm ▸ show 7 ≤ Hid.reportSize by decide)
  refine ⟨packet, hdecode, fun draws hdraws => exists_start hidle hdecode hdraws now coming,
    fun draws events t u hfirst hrun => ?_⟩
  have hstands := Machine.run?_induction_observe₂ (f := completed) (g := told)
    (P := fun u asked sent => Stands s.config packet.channel
      (read s.config.continuationTimeout coming packet) u
      ((start s now first coming).completed (now, .heard first draws) ++ asked) sent)
    (fun u asked sent e v hu hpermits hstep => by
      rw [← List.append_assoc]
      exact hu.step hversion hpermits hstep)
    (by rw [List.append_nil]; exact stands_start hversion hidle hfull hdecode hfirst) hrun
  have hnext : Machine.next? (start s now first coming) (now, Event.heard first draws) = some t :=
    hfirst
  have htold : (start s now first coming).told (now, .heard first draws) = [] := rfl
  rw [Machine.observe_cons hnext, Machine.observe_cons hnext, htold, List.nil_append]
  refine ⟨hstands.leads hversion, fun hend => ?_⟩
  cases hstands with
  | gathering listener =>
    rw [listener] at hend
    cases hend
  | @replying rest message listener verdict tells =>
    rcases rest with _ | ⟨report, rest⟩
    · rw [List.append_nil] at tells
      exact ⟨message, verdict, tells⟩
    · rw [listener] at hend
      cases hend

/-- The second packet of the PING of sixty octets on channel 5, which comes after a while. -/
def secondPing : Bytes := Packet.encode Hid.reportSize (.continuation 5 0 (Bytes.zeros 3))

/-- The PING is put together and sent back. -/
def pingRun : List (Time × Event Unit) :=
  [(300, .heard secondPing []), (300, .delivered .listener), (300, .delivered .listener)]

set_option maxRecDepth 4000 in
/-- The host is told what it has sent. -/
theorem told_is_determined_of_ping : ∃ t u message,
    (start (.fresh .standard) 0 longPing [⟨300, .ok secondPing⟩]).step? 0 (.heard longPing [9]) =
      some t ∧
    Machine.run? lasting t pingRun = some u ∧
    Verdict .standard (.ok ⟨5, Command.ping.toByte, Bytes.zeros 60⟩)
      [(⟨5, Command.ping.toByte, Bytes.zeros 60⟩, .empty)] message ∧
    Tells 5 (answerReports .ping 5 (Bytes.zeros 60)) message := by
  obtain ⟨packet, hdecode, hstart, hall⟩ := told_is_determined (.fresh .standard : System Unit)
    (by rfl) rfl (show longPing.length = Hid.reportSize by rfl) 0 [⟨300, .ok secondPing⟩]
  have hpacket : Packet.decode longPing =
    .ok (.initial 5 Command.ping.toByte 60 (Bytes.zeros 57)) := rfl
  obtain rfl := Except.ok.inj (hpacket.symm.trans hdecode)
  have hfree : ∃ c ∈ [9], ¬ ChannelTable.empty.Refuses c := by
    refine ⟨9, List.mem_singleton_self _, ?_⟩
    rintro (h | h | h)
    · revert h
      decide
    · revert h
      decide
    · rw [ChannelTable.issue_eq_none] at h
      exact Std.HashSet.not_mem_empty h
  obtain ⟨t, ht⟩ := hstart [9] hfree
  obtain ⟨u, hrun, hend⟩ : ∃ u, Machine.run? lasting t pingRun = some u ∧
      u.gateway.listener = .idle := by
    cases ht
    exact ⟨_, rfl, rfl⟩
  obtain ⟨message, hverdict, htells⟩ := (hall _ _ _ _ ht hrun).2 hend
  exact ⟨t, u, message, ht, hrun, hverdict, htells⟩

end Hosted

end Ctap.Gateway
