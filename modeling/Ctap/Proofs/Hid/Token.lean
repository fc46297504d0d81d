import Ctap.Hid.Authenticator
import Ctap.Proofs.Hid.Framing
import Ctap.Proofs.Session

/-!
# The other end of a HID link

A token puts the packets of each channel together. A message of INIT makes it drop whatever is
pending on its channel; it is answered in turn with its own nonce, and on the broadcast channel with
a channel that was never granted before. Any other message is a request. It is answered on its
channel with one message or an error code, after any number of keepalives and at any time, and the
packets of the answer go out one by one. Packets that cancel change nothing but perhaps the content
of an answer, which is free anyhow. What a token sends arrives in order. An answer to INIT arrives in
one piece; with packets of 24 octets or more it is a single one.

## Main definitions

* `Token`, `Token.hear`, `Token.Act`: what is at the other end, and what it does.
* `Token.Expects`: the packets that are still missing for a message.
* `Token.Stray`: the packets of answers to requests.

## Main results

* `Token.hear_expected`: a message is complete with the last of its packets, and not before.
* `Token.feed_answer`: the packets of an answer bring its outcome.
-/

namespace Ctap.Hid

/-! ### What a token sends -/

/-- What a token answers a request with. -/
inductive Answer where
  | message (payload : Bytes)
  | error (code : UInt8)
deriving DecidableEq

namespace Answer

/-- The packets of an answer. -/
def packets (size : Nat) (channel : ChannelId) (command : UInt8) : Answer → List Bytes
  | message payload => (messagePackets command channel payload size).map (Packet.encode size)
  | error code => [Packet.encode size (.initial channel Command.error.toByte 1 [code])]

/-- What the caller of the request is told. -/
def result : Answer → Except Link.Error Bytes
  | message payload => .ok payload
  | error code => .error (.deviceError code)

/-- What becomes of a reader that is handed the packets of an answer. -/
def outcome : Answer → Reader.Outcome
  | message payload => .gave payload []
  | error code => .failed (.deviceError code)

/-- Whether the answer is a message. -/
def isMessage : Answer → Bool
  | message _ => true
  | error _ => false

/-- Whether packets of the given size can carry the answer. -/
def fits (size : Nat) : Answer → Bool
  | message payload => initialHeaderSize < size && payload.length ≤ maxPayload size
  | error _ => true

end Answer

/-- The packet that tells that a request is still being processed. -/
def keepalivePacket (size : Nat) (channel : ChannelId) (status : UInt8) : Bytes :=
  Packet.encode size (.initial channel Command.keepalive.toByte 1 [status])

/-- What a token sends as a whole. -/
inductive Letter where
  | welcome (channel : ChannelId) (welcome : Welcome)
  | packet (raw : Bytes)
deriving DecidableEq

/-- The packets of a letter. -/
def Letter.packets (size : Nat) : Letter → List Bytes
  | welcome channel w =>
    (messagePackets Command.init.toByte channel w.encode size).map (Packet.encode size)
  | packet raw => [raw]

/-- Whether a letter answers INIT on the channel. -/
def Letter.greets (channel : ChannelId) : Letter → Bool
  | welcome c _ => c == channel
  | packet _ => false

/-- Whether a packet belongs to the channel. -/
def onChannel (channel : ChannelId) (raw : Bytes) : Bool :=
  match Packet.decode raw with
  | .ok packet => packet.channel == channel
  | .error _ => false

/-! ### The token -/

/-- What a token knows of a channel. -/
structure Port where
  /-- The message that is coming: its command, and what has come of it. -/
  intake : Option (UInt8 × Reader)
  /-- The requests without an answer, by number and command. -/
  debts : List (Nat × UInt8)
  response : List Bytes

/-- A channel on which nothing was sent. -/
def Port.idle : Port := ⟨none, [], []⟩

/-- Whether nothing is pending on a channel. -/
def Port.Quiet (p : Port) : Prop := p.debts = [] ∧ p.response = []

/-- The commands that requests are made with. -/
def Command.isRequest : Command → Bool
  | .ping | .cbor => true
  | _ => false

/-- What is at the other end of a HID link. -/
structure Token where
  packetSize : Nat
  ports : ChannelId → Port
  /-- The requests that came in full, with channel, command and payload. -/
  requests : List (ChannelId × UInt8 × Bytes)
  answers : Nat → Option Answer
  /-- The messages of INIT without an answer, with channel and nonce. -/
  inits : List (ChannelId × Bytes)
  issued : List ChannelId
  front : List Bytes
  mail : List Letter

namespace Token

/-- What a token does on its own. -/
inductive Act where
  /-- It answers the first INIT that it has not answered. -/
  | greet (welcome : Welcome)
  /-- It tells that a request is still being processed. -/
  | keepalive (channel : ChannelId) (status : UInt8)
  | answer (channel : ChannelId) (a : Answer)
  | emit (channel : ChannelId)

/-- A token to which nothing was sent. -/
def fresh (packetSize : Nat) : Token :=
  ⟨packetSize, fun _ => .idle, [], fun _ => none, [], [], [], []⟩

/-- The token with another port for a channel. -/
def withPort (p : Token) (channel : ChannelId) (port : Port) : Token :=
  { p with ports := fun c => if c = channel then port else p.ports c }

/-- Whether a packet asks for a request to be given up. -/
def isCancel (raw : Bytes) : Bool :=
  match Packet.decode raw with
  | .ok (.initial _ command _ _) => command == Command.cancel.toByte
  | _ => false

/-- The command and the reader with which a packet is taken, if it is taken at all. -/
def intake? (p : Token) : Packet → Option (UInt8 × Reader)
  | .initial channel command _ _ => some (command, .awaiting channel command false)
  | .continuation channel _ _ => (p.ports channel).intake

/-- The state after a message came in full. -/
def complete (p : Token) (channel : ChannelId) (command : UInt8) (payload : Bytes) : Token :=
  if command = Command.init.toByte then
    { p.withPort channel .idle with inits := p.inits ++ [(channel, payload)] }
  else
    { p.withPort channel
        { p.ports channel with
          intake := none
          debts := (p.ports channel).debts ++ [(p.requests.length, command)] } with
      requests := p.requests ++ [(channel, command, payload)] }

/-- The state after a packet was handed to the reader of its channel. -/
def accept (p : Token) (channel : ChannelId) (command : UInt8) (r : Reader) (raw : Bytes) : Token :=
  match r.push raw with
  | .error _ => p
  | .ok (next, none) =>
    p.withPort channel { p.ports channel with intake := some (command, next) }
  | .ok (_, some payload) => p.complete channel command payload

/-- The state after a packet came. -/
def hear (p : Token) (raw : Bytes) : Token :=
  match Packet.decode raw with
  | .error _ => p
  | .ok packet =>
    if isCancel raw then p
    else
      match p.intake? packet with
      | none => p
      | some (command, r) => p.accept packet.channel command r raw

/-- The next packet that arrives, and the state after it was taken. -/
def next? (p : Token) : Option (Bytes × Token) :=
  match p.front, p.mail with
  | raw :: front, _ => some (raw, { p with front })
  | [], [] => none
  | [], letter :: mail =>
    match letter.packets p.packetSize with
    | raw :: front => some (raw, { p with front, mail })
    | [] => none

/-- Whether a welcome answers INIT on a channel with a nonce. -/
def suits (p : Token) (channel : ChannelId) (nonce : Bytes) (w : Welcome) : Bool :=
  w.nonce == nonce && w.deviceVersion.length == 3 && initialHeaderSize < p.packetSize &&
    if channel = broadcast then w.channel != broadcast && !p.issued.contains w.channel
    else w.channel == channel

/-- The state after an act, if there is something to act on. -/
def act? (p : Token) : Act → Option Token
  | .greet w =>
    match p.inits with
    | [] => none
    | (channel, nonce) :: inits =>
      if p.suits channel nonce w then
        some { p with
          inits
          issued := if channel = broadcast then p.issued ++ [w.channel] else p.issued
          mail := p.mail ++ [.welcome channel w] }
      else none
  | .keepalive channel status =>
    if (p.ports channel).debts ≠ [] ∧ (p.ports channel).response = [] then
      some { p with mail := p.mail ++ [.packet (keepalivePacket p.packetSize channel status)] }
    else none
  | .answer channel a =>
    match (p.ports channel).debts with
    | [] => none
    | (n, command) :: debts =>
      if a.fits p.packetSize then
        some { p.withPort channel
            { p.ports channel with
              debts
              response := (p.ports channel).response ++ a.packets p.packetSize channel command } with
          answers := fun m => if m = n then some a else p.answers m }
      else none
  | .emit channel =>
    match (p.ports channel).response with
    | [] => none
    | raw :: response =>
      some { p.withPort channel { p.ports channel with response } with
        mail := p.mail ++ [.packet raw] }

instance : Peer Token Unit Act where
  hear? p _ raw := some (p.hear raw)
  next? := next?
  act? := act?
  taken p := p.requests.length

/-- All packets that arrive. -/
def inbox (p : Token) : List Bytes := p.front ++ p.mail.flatMap (Letter.packets p.packetSize)

/-- The packets of a channel among them. -/
def queued (p : Token) (channel : ChannelId) : List Bytes := p.inbox.filter (onChannel channel)

/-! ### Packets of a channel -/

variable {p q : Token} {channel c : ChannelId} {raw : Bytes}

theorem onChannel_of_decode {packet : Packet} (h : Packet.decode raw = .ok packet) :
    onChannel channel raw = (packet.channel == channel) := by
  rw [onChannel, h]

/-- A packet of an answer on a channel: it begins no answer to INIT, and only where errors may occur
an error message. -/
def Stray (calm : Bool) (channel : ChannelId) (raw : Bytes) : Prop :=
  ∃ packet, Packet.decode raw = .ok packet ∧ packet.channel = channel ∧
    (Reader.opensHandshake channel packet = true → calm = false ∧
      ∃ length data, packet = .initial channel Command.error.toByte length data)

theorem Stray.onChannel {calm : Bool} (h : Stray calm c raw) :
    onChannel channel raw = (c == channel) := by
  obtain ⟨packet, hdecode, rfl, -⟩ := h
  exact onChannel_of_decode hdecode

private theorem toByte_type_bit (command : Command) : command.toByte &&& 0x80 = 0 := by
  cases command <;> rfl

theorem Command.toByte_masked (command : Command) : command.toByte &&& 0x7F = command.toByte := by
  cases command <;> rfl

theorem isRequest_ne {command : Command} (h : command.isRequest = true) :
    command.toByte ≠ Command.init.toByte ∧ command.toByte ≠ Command.error.toByte ∧
      command.toByte ≠ Command.keepalive.toByte ∧ command.toByte ≠ Command.cancel.toByte := by
  cases command <;> revert h <;> decide

theorem stray_keepalive (calm : Bool) (size : Nat) (channel : ChannelId) (status : UInt8) :
    Stray calm channel (keepalivePacket size channel status) := by
  refine ⟨_, Packet.decode_encode_initial size channel rfl 1 [status], rfl, fun hopens => ?_⟩
  have hother : Command.keepalive.toByte ≠ Command.init.toByte ∧
      Command.keepalive.toByte ≠ Command.error.toByte := by decide
  simp [Reader.opensHandshake, hother.1, hother.2] at hopens

/-- The packets of an answer to a request are packets of an answer. -/
theorem stray_answer {calm : Bool} {size : Nat} {command : Command}
    (hcommand : command.isRequest = true) {a : Answer} (hfits : a.fits size = true)
    (hcalm : calm = true → a.isMessage = true) :
    ∀ raw ∈ a.packets size channel command.toByte, Stray calm channel raw := by
  intro raw hraw
  cases a with
  | message payload =>
    simp only [Answer.fits, Bool.and_eq_true, decide_eq_true_eq] at hfits
    obtain ⟨first, rest, hpackets, ⟨length, data, hfirst⟩, hrest⟩ :=
      Reader.packets_eq_cons hfits.1 channel (toByte_type_bit command) hfits.2
    rw [Answer.packets, hpackets] at hraw
    rcases List.mem_cons.1 hraw with rfl | hraw
    · refine ⟨_, hfirst, rfl, fun hopens => ?_⟩
      obtain ⟨hinit, herror, -⟩ := isRequest_ne hcommand
      simp [Reader.opensHandshake, hinit, herror] at hopens
    · obtain ⟨seq, data, hdecode⟩ := hrest raw hraw
      refine ⟨_, hdecode, rfl, fun hopens => ?_⟩
      cases hopens
  | error code =>
    rw [Answer.packets, List.mem_singleton] at hraw
    rw [hraw]
    refine ⟨_, Packet.decode_encode_initial size channel rfl 1 [code], rfl, fun _ => ⟨?_, _, _, rfl⟩⟩
    cases calm with
    | false => rfl
    | true => cases hcalm rfl

/-- A reader that awaits the answer to a request ends with the last of its packets. -/
theorem feed_answer {size : Nat} {command : Command} (hcommand : command.isRequest = true)
    {a : Answer} (hfits : a.fits size = true) :
    (Reader.awaiting channel command.toByte false).feed (a.packets size channel command.toByte) =
      a.outcome := by
  cases a with
  | message payload =>
    simp only [Answer.fits, Bool.and_eq_true, decide_eq_true_eq] at hfits
    have hfeed := @Reader.feed_message size hfits.1 channel _ (toByte_type_bit command) false
      (by simp) payload hfits.2 []
    rwa [List.append_nil] at hfeed
  | error code =>
    apply Reader.feed_cons_error
    refine Reader.push_error (Packet.decode_encode_initial size channel rfl 1 [code]) ?_
    rw [Command.toByte_masked]
    exact (isRequest_ne hcommand).2.1.symm

/-! ### What a token takes -/

@[simp] theorem withPort_self (p : Token) (c : ChannelId) (port : Port) :
    (p.withPort c port).ports c = port := if_pos rfl

theorem withPort_other (p : Token) {c channel : ChannelId} (h : channel ≠ c) (port : Port) :
    (p.withPort c port).ports channel = p.ports channel := if_neg h

theorem intake_withPort {port : Port} (h : port.intake = (p.ports c).intake) (channel : ChannelId) :
    ((p.withPort c port).ports channel).intake = (p.ports channel).intake := by
  by_cases hchannel : channel = c
  · rw [hchannel, withPort_self, h]
  · rw [withPort_other p hchannel]

/-- What is coming is neither pending nor to go out. -/
theorem port_intake (p : Token) (c : ChannelId) (intake : Option (UInt8 × Reader))
    (channel : ChannelId) :
    ((p.withPort c { p.ports c with intake }).ports channel).debts = (p.ports channel).debts ∧
      ((p.withPort c { p.ports c with intake }).ports channel).response =
        (p.ports channel).response := by
  by_cases hchannel : channel = c
  · rw [hchannel, withPort_self]
    exact ⟨rfl, rfl⟩
  · rw [withPort_other p hchannel]
    exact ⟨rfl, rfl⟩

theorem quiet_intake (p : Token) (c : ChannelId) (intake : Option (UInt8 × Reader))
    (channel : ChannelId) : ((p.withPort c { p.ports c with intake }).ports channel).Quiet ↔
      (p.ports channel).Quiet := by
  obtain ⟨hdebts, hresponse⟩ := port_intake p c intake channel
  rw [Port.Quiet, Port.Quiet, hdebts, hresponse]

/-- Whether the packet and those behind it are what is missing of a message on a channel. -/
def Expects (p : Token) (channel : ChannelId) (command : UInt8) (payload raw : Bytes)
    (rest : List Bytes) : Prop :=
  isCancel raw = false ∧
    (∃ packet r, Packet.decode raw = .ok packet ∧ packet.channel = channel ∧
      p.intake? packet = some (command, r) ∧ r.feed (raw :: rest) = .gave payload []) ∧
    ∀ raw' ∈ rest, ∃ seq data, Packet.decode raw' = .ok (.continuation channel seq data)

theorem Expects.mono {command : UInt8} {payload : Bytes} {rest : List Bytes}
    (h : p.Expects channel command payload raw rest)
    (hintake : (q.ports channel).intake = (p.ports channel).intake) :
    q.Expects channel command payload raw rest := by
  obtain ⟨hcancel, ⟨packet, r, hdecode, rfl, hr, hfeed⟩, hrest⟩ := h
  refine ⟨hcancel, ⟨packet, r, hdecode, rfl, ?_, hfeed⟩, hrest⟩
  cases packet with
  | initial => exact hr
  | continuation => exact hintake.trans hr

theorem hear_cancel (h : isCancel raw = true) : p.hear raw = p := by
  rw [hear]
  split
  · rfl
  · rw [if_pos h]

/-- **A message is complete with the last of its packets**, and before that it is only known to be
coming. -/
theorem hear_expected {command : UInt8} {payload : Bytes} {rest : List Bytes}
    (h : p.Expects channel command payload raw rest) :
    (rest = [] ∧ p.hear raw = p.complete channel command payload) ∨
      ∃ next more intake, rest = next :: more ∧
        p.hear raw = p.withPort channel { p.ports channel with intake } ∧
        (p.hear raw).Expects channel command payload next more := by
  obtain ⟨hcancel, ⟨packet, r, hdecode, rfl, hr, hfeed⟩, hrest⟩ := h
  have hhear : p.hear raw = p.accept packet.channel command r raw := by
    simp only [hear, hdecode, hcancel, Bool.false_eq_true, if_false, hr]
  obtain ⟨_, _, hcons, ⟨next, hpush, hnil⟩ | ⟨next, hpush, hmore⟩⟩ := Reader.feed_eq_gave hfeed
  · cases hcons
    exact .inl ⟨hnil, by rw [hhear, accept, hpush]⟩
  · cases hcons
    obtain ⟨raw', more, rfl, -⟩ := Reader.feed_eq_gave hmore
    have hnext : p.hear raw = p.withPort packet.channel
        { p.ports packet.channel with intake := some (command, next) } := by
      rw [hhear, accept, hpush]
    obtain ⟨seq, data, hdecode'⟩ := hrest raw' (List.mem_cons_self ..)
    refine .inr ⟨raw', more, _, rfl, hnext, ?_, ⟨_, next, hdecode', rfl, ?_, hmore⟩, ?_⟩
    · rw [isCancel, hdecode']
    · rw [hnext, intake?, withPort_self]
    · exact fun raw'' hraw => hrest raw'' (List.mem_cons_of_mem _ hraw)

/-- The packets that are cut for a message are what is missing of it before it has begun. -/
theorem expects_packetize {command : Command} (hcommand : command ≠ .cancel) {payload : Bytes}
    {size : Nat} {packets : List Bytes}
    (h : packetize command channel payload size = .ok packets) (p : Token) :
    ∃ raw rest, packets = raw :: rest ∧ p.Expects channel command.toByte payload raw rest := by
  rw [packetize] at h
  split_ifs at h with hsmall hlarge
  cases h
  have hsize := Nat.not_le.1 hsmall
  have hpayload := Nat.not_lt.1 hlarge
  have hfeed := @Reader.feed_message size hsize channel _ (toByte_type_bit command) false (by simp)
    payload hpayload []
  obtain ⟨raw, rest, hpackets, ⟨length, data, hdecode⟩, hrest⟩ :=
    Reader.packets_eq_cons hsize channel (toByte_type_bit command) hpayload
  rw [List.append_nil, hpackets] at hfeed
  refine ⟨raw, rest, hpackets, ?_, ⟨_, _, hdecode, rfl, rfl, hfeed⟩, hrest⟩
  have hother : command.toByte ≠ Command.cancel.toByte := by
    revert hcommand
    cases command <;> decide
  simp only [isCancel, hdecode, beq_eq_false_iff_ne]
  exact hother

theorem complete_init (p : Token) (channel : ChannelId) (nonce : Bytes) :
    p.complete channel Command.init.toByte nonce =
      { p.withPort channel .idle with inits := p.inits ++ [(channel, nonce)] } := if_pos rfl

theorem complete_request (p : Token) (channel : ChannelId) {command : Command}
    (hcommand : command.isRequest = true) (payload : Bytes) :
    p.complete channel command.toByte payload =
      { p.withPort channel
          { p.ports channel with
            intake := none
            debts := (p.ports channel).debts ++ [(p.requests.length, command.toByte)] } with
        requests := p.requests ++ [(channel, command.toByte, payload)] } :=
  if_neg (isRequest_ne hcommand).1

/-! ### What arrives -/

/-- The next packet is what is left of a letter, or the first packet of the next letter. -/
theorem next?_eq_some : p.next? = some (raw, q) ↔
    (∃ front, p.front = raw :: front ∧ q = { p with front }) ∨
      p.front = [] ∧ ∃ letter mail front, p.mail = letter :: mail ∧
        letter.packets p.packetSize = raw :: front ∧ q = { p with front, mail } := by
  rw [next?]
  rcases hfront : p.front with _ | ⟨raw', front⟩
  · rcases hmail : p.mail with _ | ⟨letter, mail⟩
    · simp
    · rcases hpackets : letter.packets p.packetSize with _ | ⟨raw', front⟩
      · simp [hpackets]
      · simp [hpackets, eq_comm (a := q)]
  · simp [eq_comm (a := q)]

theorem inbox_of_next? (h : p.next? = some (raw, q)) : p.inbox = raw :: q.inbox := by
  rcases next?_eq_some.1 h with ⟨front, hfront, rfl⟩ |
    ⟨hfront, letter, mail, front, hmail, hpackets, rfl⟩
  · rw [inbox, inbox, hfront]
    rfl
  · rw [inbox, inbox, hfront, hmail, List.flatMap_cons, hpackets]
    rfl

end Token

end Ctap.Hid
