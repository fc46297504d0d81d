import Ctap.Gateway.Reply
import Ctap.Hid.Reassembler

/-!
# Listening to the host

The gateway serves one message at a time. An initial packet begins a message; the gateway then takes
whatever comes next as a continuation of it, until the message is complete, faulty or late, and
sends its reply before it looks at the next packet.

## Main definitions

* `Listener`: idle, gathering a message, sending a reply, or at its end.
* `Listener.hear`: takes a report.
* `Listener.miss`: gives up a message that has not been completed.
-/

namespace Ctap.Gateway

open Hid (ChannelId Packet Reassembler)

/-- A message whose first packet has come. -/
structure Inbound where
  channel : ChannelId
  command : UInt8
  reassembler : Reassembler
deriving DecidableEq, Repr, Inhabited

/-- What the gateway does with regard to its host. -/
inductive Listener where
  | idle
  /-- It waits for the next packet of a message, until `deadline`. -/
  | gathering (message : Inbound) (deadline : Time)
  /-- It sends reports; the first of them is next. -/
  | replying (report : Bytes) (rest : List Bytes)
  | stopped (result : Except Error Unit)

namespace Listener

/-- The listener that sends reports and then is idle. -/
def reply : List Bytes → Listener
  | [] => idle
  | report :: rest => replying report rest

/-- Goes on after a packet was pushed into the reassembly of a message. -/
def proceed (config : Config) (draws : List ChannelId) (now : Time) (table : ChannelTable)
    (message : Inbound) :
    Except Link.Error (Reassembler × Option Bytes) → Option (Listener × Reaction)
  | .error cause =>
    let reaction := Reaction.error table message.channel (codeOf cause)
    some (reply reaction.reports, reaction)
  | .ok (next, none) =>
    some (gathering { message with reassembler := next } (now + config.continuationTimeout),
      .send table [])
  | .ok (_, some payload) =>
    (respond config draws table message.channel message.command payload).map fun reaction =>
      (reply reaction.reports, reaction)

/-- Takes a report as the beginning of a message. -/
def begin (config : Config) (draws : List ChannelId) (now : Time) (table : ChannelTable)
    (report : Bytes) : Option (Listener × Reaction) :=
  match Packet.decode report with
  | .error _ => some (idle, .send table [])
  | .ok (.continuation channel _ _) =>
    let reaction := Reaction.error table channel .invalidSequence
    some (reply reaction.reports, reaction)
  | .ok (.initial channel command _ _) =>
    let reassembler := Reassembler.await channel command
    proceed config draws now table ⟨channel, command, reassembler⟩ (reassembler.push report)

/-- Takes a report. Only an idle listener and one that gathers a message do; `draws` are random
numbers for a new channel. -/
def hear (config : Config) (draws : List ChannelId) (now : Time) (table : ChannelTable)
    (report : Bytes) : Listener → Option (Listener × Reaction)
  | idle => begin config draws now table report
  | gathering message _ =>
    proceed config draws now table message (message.reassembler.push report)
  | _ => none

/-- Gives up a message that was not completed, for the given cause. -/
def miss (table : ChannelTable) (cause : Link.Error) : Listener → Option (Listener × Reaction)
  | gathering message _ =>
    let reaction := Reaction.error table message.channel (codeOf cause)
    some (reply reaction.reports, reaction)
  | _ => none

end Listener

end Ctap.Gateway
