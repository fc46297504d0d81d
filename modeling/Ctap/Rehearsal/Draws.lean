import Ctap.Bytes
import Ctap.Hid.Command

/-!
# Draws that can be repeated

A rehearsal replaces random numbers by fixed sequences in which no value comes twice for a long
time: the multiples of an odd number, reduced to the width of a word.

## Main definitions

* `Draws.nonce`: handshake nonces.
* `Draws.channel`: channel numbers.
-/

namespace Ctap.Rehearsal.Draws

open Hid (ChannelId)

/-- The handshake nonce with a number. -/
def nonce (n : Nat) : Bytes := Bytes.ofNat Hid.nonceSize ((n + 1) * 0x9E3779B97F4A7C15)

/-- The channel with a number. -/
def channel (n : Nat) : ChannelId := UInt32.ofNat ((n + 1) * 0x9E3779B9)

/-- The channels from a number on, enough of them for one to be an ordinary channel. -/
def channelsFrom (n : Nat) : List ChannelId := (List.range 4).map fun k => channel (n + k)

end Ctap.Rehearsal.Draws
