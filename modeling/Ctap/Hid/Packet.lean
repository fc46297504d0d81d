import Ctap.Hid.Command
import Ctap.Link.Error

/-!
# HID packets

A packet names its channel and is either the initial packet of a message, with command and payload
length, or a continuation with a sequence number. The type bit of the fifth octet tells the two
apart. A written packet is filled with zeros up to the packet size of the link.

## Main definitions

* `Packet.encode`: the octets of a packet.
* `Packet.decode`: the packet in a string of octets, of any length that holds its header.
-/

namespace Ctap.Hid

/-- A packet: the initial one of a message, or a continuation. -/
inductive Packet where
  /-- The initial packet of a message; the command is without the type bit. -/
  | initial (channel : ChannelId) (command : UInt8) (length : UInt16) (data : Bytes)
  | continuation (channel : ChannelId) (seq : UInt8) (data : Bytes)
deriving DecidableEq, Repr, Inhabited

namespace Packet

/-- The channel of a packet. -/
def channel : Packet → ChannelId
  | initial channel _ _ _ | continuation channel _ _ => channel

/-- What the packet carries after its header. -/
def data : Packet → Bytes
  | initial _ _ _ data | continuation _ _ data => data

/-- The octets of a packet, filled with zeros up to `size`. -/
def encode (size : Nat) : Packet → Bytes
  | initial channel command length data =>
    Bytes.padTo size
      (Bytes.ofUInt32 channel ++ (command ||| 0x80) :: Bytes.ofUInt16 length ++ data)
  | continuation channel seq data =>
    Bytes.padTo size (Bytes.ofUInt32 channel ++ seq :: data)

/-- The fault of a packet that does not hold its header. -/
def shortHeader : Link.Error := .invalidPacket "HID packet shorter than its header"

/-- The packet in a string of octets; everything after the header is data. -/
def decode : Bytes → Except Link.Error Packet
  | a :: b :: c :: d :: tag :: rest =>
    if tag &&& 0x80 = 0 then
      .ok (.continuation (Bytes.toUInt32 a b c d) tag rest)
    else
      match rest with
      | hi :: lo :: data =>
        .ok (.initial (Bytes.toUInt32 a b c d) (tag &&& 0x7F) (Bytes.toUInt16 hi lo) data)
      | _ => .error shortHeader
  | _ => .error shortHeader

end Packet

end Ctap.Hid
