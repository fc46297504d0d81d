import Ctap.Authenticator

/-!
# Settings of the gateway

How long a request may take, how often the gateway looks for an authenticator, how often it tells
the host that it is still at work, and what it reports about itself in handshakes.
-/

namespace Ctap.Gateway

/-- The settings of a gateway. -/
structure Config where
  /-- How long a request may take before it is given up. -/
  requestTimeout : Time
  /-- How long to rest before another attempt. -/
  pollDelay : Time
  /-- The time between two keepalives; it is not zero. -/
  keepaliveInterval : Time
  /-- How long the host may take for the next packet of a message. -/
  continuationTimeout : Time
  deviceVersion : Bytes
  capabilities : UInt8
deriving DecidableEq, Repr

/-- The settings in use unless told otherwise. -/
def Config.standard : Config where
  requestTimeout := 30000
  pollDelay := 100
  keepaliveInterval := 100
  continuationTimeout := 500
  deviceVersion := [0x01, 0x00, 0x00]
  capabilities := 0x0C

instance : Inhabited Config := ⟨.standard⟩

end Ctap.Gateway
