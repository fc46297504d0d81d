import Ctap.Hid.Packet
import Ctap.Hid.Welcome

/-!
# Aliases of drawn channels

Channels are random numbers, so a transcript gives them names: the first channel that a gateway
granted is shown as `ca000001`, the next as `ca000002`, and so on. Scripts use the same names. A
number whose alias has not been given out yet stands for itself.

## Main definitions

* `grantedChannel?`: the channel that a report grants.
* `Aliases`: the channels that were granted.
* `Aliases.resolve`, `Aliases.show`: from an alias to its channel, and back.
* `Aliases.resolveReport`, `Aliases.showReport`: the same for the channels in a report.
-/

namespace Ctap.Rehearsal

open Hid (ChannelId)

/-- The channel that a report grants, if it answers a request for one. -/
def grantedChannel? (report : Bytes) : Option ChannelId :=
  match Hid.Packet.decode report with
  | .ok (.initial channel command _ data) =>
    if channel = Hid.broadcast ∧ command = Hid.Command.init.toByte then
      match Hid.Welcome.decode data with
      | .ok welcome => some welcome.channel
      | .error _ => none
    else none
  | _ => none

/-- The channels that were granted, latest first. -/
structure Aliases where
  granted : List ChannelId
deriving DecidableEq, Repr, Inhabited

namespace Aliases

/-- Gives an alias to the channel that a report grants. -/
def learn (a : Aliases) (report : Bytes) : Aliases :=
  match grantedChannel? report with
  | some channel => ⟨channel :: a.granted⟩
  | none => a

/-- The number before the first alias. -/
def base : Nat := 0xca000000

/-- The channel that a number stands for. -/
def resolve (a : Aliases) (channel : ChannelId) : ChannelId :=
  let number := channel.toNat
  if base < number ∧ number ≤ base + a.granted.length then
    a.granted.getD (base + a.granted.length - number) channel
  else channel

/-- The number by which a channel is shown. -/
def «show» (a : Aliases) (channel : ChannelId) : ChannelId :=
  match a.granted.findIdx? (· == channel) with
  | none => channel
  | some later => UInt32.ofNat (base + a.granted.length - later)

/-- Changes the four octets at a position, if they are there. -/
def mapChannelAt (f : ChannelId → ChannelId) (position : Nat) (octets : Bytes) : Bytes :=
  match octets.drop position with
  | a :: b :: c :: d :: rest =>
    octets.take position ++ Bytes.ofUInt32 (f (Bytes.toUInt32 a b c d)) ++ rest
  | _ => octets

/-- The report that a script means. -/
def resolveReport (a : Aliases) (report : Bytes) : Bytes := mapChannelAt a.resolve 0 report

/-- Where the channel stands in a report that answers a handshake. -/
def welcomeChannelAt : Nat := Hid.initialHeaderSize + Hid.nonceSize

/-- A report as it is shown: with aliases in its header and in an answer to a handshake. -/
def showReport (a : Aliases) (report : Bytes) : Bytes :=
  let report := mapChannelAt a.show 0 report
  if report[4]? = some Hid.Command.init.toInitialByte then
    mapChannelAt a.show welcomeChannelAt report
  else report

end Aliases

end Ctap.Rehearsal
