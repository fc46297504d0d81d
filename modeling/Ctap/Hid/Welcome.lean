import Ctap.Hid.Command
import Ctap.Link.Error

/-!
# The answer to a handshake

An authenticator answers INIT with seventeen octets: the nonce it was sent, a channel, the version
of the protocol and of the device, and its capabilities.
-/

namespace Ctap.Hid

/-- The answer to a handshake. -/
structure Welcome where
  nonce : Bytes
  channel : ChannelId
  protocolVersion : UInt8
  deviceVersion : Bytes
  capabilities : UInt8
deriving DecidableEq, Repr, Inhabited

namespace Welcome

/-- The seventeen octets of an answer whose nonce and device version have their lengths. -/
def encode (w : Welcome) : Bytes :=
  w.nonce ++ Bytes.ofUInt32 w.channel ++ [w.protocolVersion] ++ w.deviceVersion ++ [w.capabilities]

/-- The answer in a payload; octets after the seventeenth are ignored. -/
def decode : Bytes → Except Link.Error Welcome
  | n₀ :: n₁ :: n₂ :: n₃ :: n₄ :: n₅ :: n₆ :: n₇ :: a :: b :: c :: d :: version ::
      v₀ :: v₁ :: v₂ :: capabilities :: _ =>
    .ok
      { nonce := [n₀, n₁, n₂, n₃, n₄, n₅, n₆, n₇]
        channel := Bytes.toUInt32 a b c d
        protocolVersion := version
        deviceVersion := [v₀, v₁, v₂]
        capabilities := capabilities }
  | payload => .error (.truncated handshakeSize payload.length)

/-- Whether the device takes CBOR requests. -/
def supportsCbor (w : Welcome) : Bool := w.capabilities &&& Capability.cbor != 0

end Welcome

end Ctap.Hid
