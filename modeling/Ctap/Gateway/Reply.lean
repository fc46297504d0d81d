import Ctap.Gateway.ChannelTable
import Ctap.Gateway.Config
import Ctap.Hid.Message
import Ctap.Hid.Welcome

/-!
# Replies to messages of the host

INIT and PING are answered at once. A CBOR request is accepted unless one is in flight on its
channel, and CANCEL gives up the one in flight. Everything else is an error, which is answered and
changes nothing.

## Main definitions

* `answerReports`, `errorReports`: reports that carry a message to the host.
* `Reaction`: reports to send, the request to signal, the request to start, and the table.
* `respond`: the reaction to a complete message.
-/

namespace Ctap.Gateway

open Hid (ChannelId Command ErrorCode Welcome)

/-- The reports that carry an error code. -/
def errorReports (channel : ChannelId) (code : ErrorCode) : List Bytes :=
  [Hid.errorPacket channel code]

/-- The reports that carry an answer; one that is too long is replaced by an error. -/
def answerReports (command : Command) (channel : ChannelId) (payload : Bytes) : List Bytes :=
  match Hid.packetize command channel payload Hid.reportSize with
  | .ok reports => reports
  | .error _ => errorReports channel .other

/-- A CBOR request that was accepted. -/
structure Accepted where
  id : DispatchId
  channel : ChannelId
  request : Bytes
deriving DecidableEq, Repr, Inhabited

/-- What follows from a message of the host. -/
structure Reaction where
  table : ChannelTable
  reports : List Bytes
  signal : Option (DispatchId × Abort)
  accepted : Option Accepted

namespace Reaction

/-- Sends reports and does nothing else. -/
def send (table : ChannelTable) (reports : List Bytes) : Reaction := ⟨table, reports, none, none⟩

/-- Answers with an error. -/
def error (table : ChannelTable) (channel : ChannelId) (code : ErrorCode) : Reaction :=
  send table (errorReports channel code)

end Reaction

/-- The answer to a handshake. -/
def welcome (config : Config) (nonce : Bytes) (channel : ChannelId) : Welcome where
  nonce := nonce
  channel := channel
  protocolVersion := Hid.protocolVersion
  deviceVersion := config.deviceVersion
  capabilities := config.capabilities

/-- Answers INIT on the broadcast channel with a new channel. -/
def welcomeNew (config : Config) (draws : List ChannelId) (table : ChannelTable) (nonce : Bytes) :
    Option Reaction :=
  if nonce.length = Hid.nonceSize then
    match table.allocate draws with
    | none => none
    | some (channel, table) =>
      some (.send table (answerReports .init Hid.broadcast (welcome config nonce channel).encode))
  else some (.error table Hid.broadcast .invalidLength)

/-- Answers INIT on a channel, and gives up the request in flight on it. -/
def welcomeBack (config : Config) (table : ChannelTable) (channel : ChannelId) (nonce : Bytes) :
    Reaction :=
  if nonce.length = Hid.nonceSize then
    let aborted := table.abort channel .resync
    { table := aborted.2
      reports := answerReports .init channel (welcome config nonce channel).encode
      signal := aborted.1.map (·, .resync)
      accepted := none }
  else .error table channel .invalidLength

/-- Accepts a CBOR request, unless the channel is busy. -/
def accept (table : ChannelTable) (channel : ChannelId) (request : Bytes) : Reaction :=
  match table.start channel with
  | none => .error table channel .channelBusy
  | some (id, table) => ⟨table, [], none, some ⟨id, channel, request⟩⟩

/-- Gives up the request in flight on a channel, if there is one. -/
def cancel (table : ChannelTable) (channel : ChannelId) : Reaction :=
  let aborted := table.abort channel .cancel
  ⟨aborted.2, [], aborted.1.map (·, .cancel), none⟩

/-- The reaction to a complete message. There is none only if no random draw can be issued. -/
def respond (config : Config) (draws : List ChannelId) (table : ChannelTable)
    (channel : ChannelId) (command : UInt8) (payload : Bytes) : Option Reaction :=
  if channel = Hid.broadcast then
    if Command.ofByte? command = some .init then welcomeNew config draws table payload
    else some (.error table channel .invalidCommand)
  else if channel = 0 then some (.error table channel .invalidChannel)
  else
    match Command.ofByte? command with
    | some .init => some (welcomeBack config table channel payload)
    | some .ping => some (.send table (answerReports .ping channel payload))
    | some .cbor => some (accept table channel payload)
    | some .cancel => some (cancel table channel)
    | _ => some (.error table channel .invalidCommand)

/-- The error code for a message that could not be read. -/
def codeOf : Link.Error → ErrorCode
  | .invalidSequence .. => .invalidSequence
  | .timeout => .messageTimeout
  | _ => .invalidCommand

end Ctap.Gateway
