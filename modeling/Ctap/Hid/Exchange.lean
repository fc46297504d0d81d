import Ctap.Hid.Reassembler
import Ctap.Hid.Welcome
import Ctap.Link.Conversation

/-!
# Exchanges on a HID channel

An exchange sends the packets of a message and then reads the answer of the same command on the same
channel. A handshake is the exchange of INIT with a fresh nonce; since INIT makes the authenticator
give up whatever it was doing on the channel, its reader discards what is queued ahead of the
answer, except for an error message on the channel.

## Main definitions

* `Reader`: takes packets until a message is complete.
* `Exchange`: packets to send, then a reader.
* `Handshake`: an exchange of INIT that must bring its nonce back.
-/

namespace Ctap.Hid

open Link (Conversation Move)

/-- Takes the packets of an answer. -/
structure Reader where
  reassembler : Reassembler
  /-- Whether packets queued ahead of the answer are discarded. -/
  selective : Bool
deriving DecidableEq, Repr, Inhabited

namespace Reader

/-- Whether a packet begins an INIT or error message on `channel`. -/
def opensHandshake (channel : ChannelId) : Packet → Bool
  | .initial c command _ _ =>
    c == channel && (command == Command.init.toByte || command == Command.error.toByte)
  | .continuation .. => false

/-- Hands a packet to the reassembly. -/
def accept (r : Reader) (raw : Bytes) : Except Link.Error (Reader × Option Bytes) :=
  match r.reassembler.push raw with
  | .error e => .error e
  | .ok (next, payload) => .ok ({ r with reassembler := next }, payload)

/-- Takes a packet. A selective reader discards packets until its answer begins. -/
def push (r : Reader) (raw : Bytes) : Except Link.Error (Reader × Option Bytes) :=
  if r.selective && !r.reassembler.isStarted then
    match Packet.decode raw with
    | .error e => .error e
    | .ok packet =>
      if opensHandshake r.reassembler.channel packet then r.accept raw else .ok (r, none)
  else r.accept raw

end Reader

/-- An exchange between two link operations. -/
inductive Exchange where
  | writing (packet : Bytes) (rest : List Bytes) (reader : Reader)
  | reading (reader : Reader)
  | ended (result : Except Link.Error Bytes)

namespace Exchange

/-- Sends packets, which may have failed to be cut, and reads the answer with `reader`. -/
def start (reader : Reader) : Except Link.Error (List Bytes) → Exchange
  | .error e => ended (.error e)
  | .ok [] => reading reader
  | .ok (packet :: rest) => writing packet rest reader

/-- Reads a message without sending anything. -/
def read (channel : ChannelId) (expected : Command) : Exchange :=
  reading ⟨Reassembler.await channel expected.toByte, false⟩

/-- Sends a message and reads the answer of the same command on the same channel. -/
def transact (channel : ChannelId) (command : Command) (payload : Bytes) (packetSize : Nat) :
    Exchange :=
  start ⟨Reassembler.await channel command.toByte, false⟩
    (packetize command channel payload packetSize)

/-- The state after a packet was sent. -/
def sent : Exchange → Except Link.Error Unit → Exchange
  | writing _ [] reader, .ok () => reading reader
  | writing _ (packet :: rest) reader, .ok () => writing packet rest reader
  | writing .., .error e => ended (.error e)
  | x, _ => x

/-- The state after a packet was received. -/
def received : Exchange → Except Link.Error Bytes → Exchange
  | reading reader, .ok raw =>
    match reader.push raw with
    | .error e => ended (.error e)
    | .ok (next, none) => reading next
    | .ok (_, some payload) => ended (.ok payload)
  | reading _, .error e => ended (.error e)
  | x, _ => x

instance : Conversation Exchange (Except Link.Error Bytes) where
  move
    | writing packet _ _ => .send packet
    | reading _ => .receive
    | ended result => .stop result
  sent := sent
  received := received

end Exchange

/-- A handshake between two link operations. -/
structure Handshake where
  nonce : Bytes
  exchange : Exchange

namespace Handshake

/-- The handshake on `channel` with a nonce. -/
def start (channel : ChannelId) (nonce : Bytes) (packetSize : Nat) : Handshake :=
  { nonce
    exchange := .start ⟨Reassembler.await channel Command.init.toByte, true⟩
      (packetize .init channel nonce packetSize) }

/-- Reads the answer to a handshake; another nonce than the one sent is refused. -/
def conclude (nonce : Bytes) : Except Link.Error Bytes → Except Link.Error Welcome
  | .error e => .error e
  | .ok payload =>
    match Welcome.decode payload with
    | .error e => .error e
    | .ok welcome => if welcome.nonce = nonce then .ok welcome else .error .nonceMismatch

instance : Conversation Handshake (Except Link.Error Welcome) where
  move h := (Conversation.move h.exchange).map (conclude h.nonce)
  sent h r := { h with exchange := h.exchange.sent r }
  received h r := { h with exchange := h.exchange.received r }

end Handshake

end Ctap.Hid
