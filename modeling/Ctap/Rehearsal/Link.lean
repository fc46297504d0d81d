import Ctap.Authenticator
import Ctap.Hid.Message
import Ctap.Hid.Welcome

/-!
# Scripted links

A scripted link hands out what was queued on it, in order and not before its time, and records what
is sent. It can be told to fail a later send. Handshake nonces are remembered, so that a scripted
answer can bring one back, and are shown as zeros in the record.

## Main definitions

* `Item`: something to be received.
* `NonceWatch`: finds nonces among the octets that are sent.
* `ScriptedLink.send`, `ScriptedLink.receive`: what the link does at an instant.
-/

namespace Ctap.Rehearsal

open Hid (ChannelId Welcome)

/-- An answer to a handshake as it is scripted. -/
structure WelcomeScript where
  on : ChannelId
  channel : ChannelId
  protocolVersion : UInt8
  deviceVersion : Bytes
  capabilities : UInt8
  /-- The nonce, if it is not the last one that was sent. -/
  nonce : Option Bytes
  /-- Whether the last bit of the nonce is turned over. -/
  flip : Bool
  payloadLength : Nat
deriving DecidableEq, Repr

/-- Something to be received. -/
inductive Item where
  | packet (octets : Bytes)
  | failure (cause : Link.Error)
  | message (command : Hid.Command) (on : ChannelId) (payload : Bytes)
  | welcome (script : WelcomeScript)
deriving DecidableEq, Repr

/-- A bound for the number of outcomes of an item. -/
def Item.weight : Item → Nat
  | message _ _ payload => payload.length + 2
  | welcome script => script.payloadLength + 2
  | _ => 1

/-- An item with the instant before which it cannot be received. -/
structure Queued where
  /-- The instant, if it matters. -/
  due : Option Time
  item : Item
deriving DecidableEq, Repr

/-- Finds handshake nonces among sent packets. -/
structure NonceWatch where
  /-- How many octets of the nonce are still to come. -/
  due : Nat
  nonce : Bytes
deriving DecidableEq, Repr

namespace NonceWatch

/-- A watch that has seen nothing. -/
def fresh : NonceWatch := ⟨0, []⟩

/-- Takes nonce octets after a header and shows them as zeros. -/
def take (w : NonceWatch) (header body : Bytes) : NonceWatch × Bytes :=
  let found := body.take w.due
  (⟨w.due - found.length, w.nonce ++ found⟩,
    header ++ Bytes.zeros found.length ++ body.drop w.due)

/-- Looks at a sent packet: what it shows, and the watch afterwards. -/
def look (w : NonceWatch) (packet : Bytes) : NonceWatch × Bytes :=
  match packet[4]? with
  | none => (w, packet)
  | some tag =>
    if tag &&& 0x80 = 0 then
      w.take (packet.take Hid.continuationHeaderSize) (packet.drop Hid.continuationHeaderSize)
    else
      let w : NonceWatch :=
        if tag = Hid.Command.init.toInitialByte then ⟨Hid.nonceSize, []⟩ else { w with due := 0 }
      w.take (packet.take Hid.initialHeaderSize) (packet.drop Hid.initialHeaderSize)

end NonceWatch

/-- What a link records. -/
structure Sent where
  /-- When the packet was sent. -/
  time : Time
  shown : Bytes
deriving DecidableEq, Repr

/-- A link that follows a script. -/
structure ScriptedLink where
  packetSize : Nat
  queue : List Queued
  /-- The failure of a receive when nothing is queued; without one it waits for ever. -/
  onEmpty : Option Link.Error
  pendingFailure : Option (Nat × Link.Error)
  /-- The watch for nonces, on links that have any. -/
  watch : Option NonceWatch
  /-- What was sent, latest first. -/
  record : List Sent
deriving DecidableEq, Repr

namespace ScriptedLink

/-- The last nonce that was sent; zeros if there was none. -/
def lastNonce (l : ScriptedLink) : Bytes :=
  Bytes.padTo Hid.nonceSize ((l.watch.map (·.nonce)).getD [])

/-- Turns over the last bit. -/
def flipLast (octets : Bytes) : Bytes :=
  match octets.reverse with
  | [] => []
  | last :: before => before.reverse ++ [last ^^^ 1]

/-- The payload of a scripted answer to a handshake. -/
def welcomePayload (l : ScriptedLink) (s : WelcomeScript) : Bytes :=
  let nonce := s.nonce.getD l.lastNonce
  let answer : Welcome :=
    { nonce := if s.flip then flipLast nonce else nonce
      channel := s.channel
      protocolVersion := s.protocolVersion
      deviceVersion := s.deviceVersion
      capabilities := s.capabilities }
  Bytes.padTo s.payloadLength (answer.encode.take s.payloadLength)

/-- What a message brings: its packets, or the reason why it has none. -/
def packetsOf (l : ScriptedLink) (command : Hid.Command) (on : ChannelId) (payload : Bytes) :
    List (Except Link.Error Bytes) :=
  match Hid.packetize command on payload l.packetSize with
  | .ok packets => packets.map .ok
  | .error cause => [.error cause]

/-- What an item brings: one outcome after the other. -/
def expand (l : ScriptedLink) : Item → List (Except Link.Error Bytes)
  | .packet octets => [.ok octets]
  | .failure cause => [.error cause]
  | .message command on payload => l.packetsOf command on payload
  | .welcome script => l.packetsOf .init script.on (l.welcomePayload script)

/-- An outcome as an item that can be received at any time. -/
def requeue : Except Link.Error Bytes → Queued
  | .ok octets => ⟨none, .packet octets⟩
  | .error cause => ⟨none, .failure cause⟩

/-- Sends a packet. It is recorded even if it fails. -/
def send (l : ScriptedLink) (now : Time) (packet : Bytes) : Except Link.Error Unit × ScriptedLink :=
  let looked : Option NonceWatch × Bytes :=
    match l.watch with
    | none => (none, packet)
    | some w => let r := w.look packet; (some r.1, r.2)
  let l := { l with watch := looked.1, record := ⟨now, looked.2⟩ :: l.record }
  match l.pendingFailure with
  | none => (.ok (), l)
  | some (0, cause) => (.error cause, { l with pendingFailure := none })
  | some (after + 1, cause) => (.ok (), { l with pendingFailure := some (after, cause) })

/-- What a receive does at an instant. -/
inductive Reception where
  | ended (outcome : Except Link.Error Bytes)
  | waits (wake : Option Time)

/-- Receives from the front of the queue. While a receive waits, the queue stays as it is. -/
def receive (l : ScriptedLink) (now : Time) : Reception × ScriptedLink :=
  match l.queue with
  | [] =>
    match l.onEmpty with
    | none => (.waits none, l)
    | some cause => (.ended (.error cause), l)
  | front :: rest =>
    if now < front.due.getD 0 then (.waits front.due, l)
    else
      match l.expand front.item with
      | [] => (.ended (.error .disconnected), { l with queue := rest })
      | outcome :: others =>
        (.ended outcome, { l with queue := others.map requeue ++ rest })

/-- A bound for the number of outcomes that can still be received, and of packets that were sent. -/
def weight (l : ScriptedLink) : Nat :=
  l.queue.foldr (fun q n => q.item.weight + n) l.record.length

end ScriptedLink

end Ctap.Rehearsal
