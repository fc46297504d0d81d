import Ctap.Hid.Message

/-!
# Reassembly of messages

A reassembler awaits messages of one command on one channel. Packets are pushed in the order in
which they arrive; the push of the last packet of a message gives its payload. Before a message has
begun, keepalives are skipped and an error message is reported as such, unless that very command is
awaited. A packet that is refused leaves the reassembler as it was.

## Main definitions

* `Reassembler`: the channel, the command awaited, and what has been gathered of a message.
* `Reassembler.push`: the next state and the payload, if it is complete.
-/

namespace Ctap.Hid

/-- What has been gathered of a message that is not complete. -/
structure Gathered where
  total : Nat
  data : Bytes
  nextSeq : UInt8
deriving DecidableEq, Repr, Inhabited

/-- Reassembly of the messages of one command on one channel. -/
structure Reassembler where
  channel : ChannelId
  /-- The command awaited, without the type bit. -/
  expected : UInt8
  gathered : Option Gathered
deriving DecidableEq, Repr, Inhabited

namespace Reassembler

/-- A reassembler that awaits messages with the command value `expected` on `channel`. -/
def await (channel : ChannelId) (expected : UInt8) : Reassembler :=
  { channel, expected := expected &&& 0x7F, gathered := none }

/-- Whether the initial packet of a message has been taken. -/
def isStarted (r : Reassembler) : Bool := r.gathered.isSome

/-- Keeps a message that is not complete, and gives out one that is. -/
def settle (r : Reassembler) (g : Gathered) : Reassembler × Option Bytes :=
  if g.data.length = g.total then ({ r with gathered := none }, some g.data)
  else ({ r with gathered := some g }, none)

/-- The fault of a continuation without a message that it continues. -/
def strayContinuation : Link.Error := .invalidPacket "continuation packet before initial packet"

/-- Takes an initial packet while no message has begun; `packetSize` is the length of the packet. -/
def begin (r : Reassembler) (packetSize : Nat) (command : UInt8) (length : UInt16) (data : Bytes) :
    Except Link.Error (Reassembler × Option Bytes) :=
  if command = r.expected then
    if maxPayload packetSize < length.toNat then .error (.messageTooLarge length.toNat)
    else .ok (r.settle ⟨length.toNat, data.take length.toNat, 0⟩)
  else if command = Command.keepalive.toByte then .ok (r, none)
  else if command = Command.error.toByte then
    .error (.deviceError (data.head?.getD ErrorCode.other.toByte))
  else .error (.unexpectedCommand command)

/-- Takes a continuation of the message `g`. -/
def extend (r : Reassembler) (g : Gathered) (seq : UInt8) (data : Bytes) :
    Except Link.Error (Reassembler × Option Bytes) :=
  if seq = g.nextSeq then
    .ok (r.settle ⟨g.total, g.data ++ data.take (g.total - g.data.length), g.nextSeq + 1⟩)
  else .error (.invalidSequence g.nextSeq seq)

/-- Takes the next packet. The result holds the payload if the packet completes a message. -/
def push (r : Reassembler) (raw : Bytes) : Except Link.Error (Reassembler × Option Bytes) :=
  match Packet.decode raw with
  | .error e => .error e
  | .ok packet =>
    if packet.channel = r.channel then
      match packet, r.gathered with
      | .initial _ command length data, none => r.begin raw.length command length data
      | .initial _ command _ _, some g => .error (.invalidSequence g.nextSeq (command ||| 0x80))
      | .continuation .., none => .error strayContinuation
      | .continuation _ seq data, some g => r.extend g seq data
    else .error (.channelMismatch r.channel packet.channel)

end Reassembler

end Ctap.Hid
