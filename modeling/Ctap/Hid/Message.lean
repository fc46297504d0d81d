import Ctap.Hid.Packet

/-!
# Messages as packets

A message is one initial packet and as many continuations as its payload needs, numbered from zero.
There are 128 sequence numbers and the length field has 16 bits; a payload beyond either limit is
refused, never cut or wrapped.

## Main definitions

* `maxPayload`: the longest payload for a packet size.
* `messagePackets`: the packets of a message.
* `packetize`: the packets of a message as octets, or the reason why there are none.
-/

namespace Ctap.Hid

/-- The longest payload for packets of the given size. -/
def maxPayload (packetSize : Nat) : Nat :=
  min (packetSize - initialHeaderSize + 128 * (packetSize - continuationHeaderSize)) 65535

/-- Continuations of the given pieces, numbered from `seq`. -/
def continuations (channel : ChannelId) : UInt8 → List Bytes → List Packet
  | _, [] => []
  | seq, piece :: rest => .continuation channel seq piece :: continuations channel (seq + 1) rest

/-- The packets of a message with any command value and no limit on its length. -/
def messagePackets (command : UInt8) (channel : ChannelId) (payload : Bytes) (packetSize : Nat) :
    List Packet :=
  let first := packetSize - initialHeaderSize
  .initial channel command (UInt16.ofNat payload.length) (payload.take first) ::
    continuations channel 0
      (Bytes.chunks (packetSize - continuationHeaderSize) (payload.drop first))

/-- The octets of the packets of a message. -/
def packetize (command : Command) (channel : ChannelId) (payload : Bytes) (packetSize : Nat) :
    Except Link.Error (List Bytes) :=
  if packetSize ≤ initialHeaderSize then
    .error (.invalidArgument "HID packet size must exceed 7 bytes")
  else if maxPayload packetSize < payload.length then
    .error (.messageTooLarge payload.length)
  else
    .ok ((messagePackets command.toByte channel payload packetSize).map (Packet.encode packetSize))

/-- The single packet that carries an error code. -/
def errorPacket (channel : ChannelId) (code : ErrorCode) : Bytes :=
  Packet.encode reportSize (.initial channel Command.error.toByte 1 [code.toByte])

end Ctap.Hid
