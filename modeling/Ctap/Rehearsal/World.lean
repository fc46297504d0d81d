import Ctap.Gateway.Pipe
import Ctap.Gateway.System
import Ctap.Rehearsal.Alias
import Ctap.Rehearsal.Draws
import Ctap.Rehearsal.Partner

/-!
# Rehearsing a gateway

A gateway runs between a host, which reads whatever it is sent, and the devices of the rehearsal. At
one instant the listener and the requests take turns: whoever has waited longest goes on until it
has to wait or has to give way to others, and then queues up behind them. When nobody can go on, the
host reads everything that is there, and there is room again for those who waited for it, first
come, first served. This is repeated until nothing is left to do. Then the clock jumps to the next
instant at which something is due.

## Main definitions

* `World`: the gateway, its host and its devices.
* `World.settle`: everything that needs no time.
* `World.pass`: lets time pass.
* `Step`, `World.perform`: the steps of a script.
-/

namespace Ctap.Rehearsal

open Gateway (Accepted Attempt Config Dispatch DispatchId Event Listener Pipe Relay Sender System)
open Hid (ChannelId)

/-- How many steps are taken at one instant before a script that never waits is given up. -/
def stepLimit : Nat := 4096

/-- How much a task does at a stretch before it gives way to others. -/
def stretch : Nat := 128

/-- The number of a device. -/
abbrev PartnerId : Type := Nat

/-- A gateway with its host and its devices. -/
structure World where
  now : Time
  system : System PartnerId
  partners : Array Partner
  listed : DeviceList PartnerId
  /-- How many times listing the devices fails. -/
  listFaults : Nat
  /-- How many reports of the gateway are lost. -/
  sendFaults : Nat
  /-- How the next receive of the gateway fails. -/
  receiveFault : Option Error
  leaving : Bool
  /-- Those who take turns; whoever has waited longest is in front. -/
  turns : List Sender
  pipe : Pipe
  /-- Those for whom room is kept in the pipe to the host, for one report each. -/
  kept : List Sender
  /-- What the host received, latest first. -/
  received : List (Time × Bytes)
  /-- The transcript of the devices, latest first. -/
  log : List Entry
  nextNonce : Nat
  nextDraw : Nat
  aliases : Aliases
  /-- When the gateway stopped. -/
  stoppedAt : Option Time

namespace World

/-- A gateway at instant 0. -/
def start (config : Config) (partners : List Partner) : World where
  now := 0
  system := .fresh config
  partners := partners.toArray
  listed := .ofList (List.range partners.length)
  listFaults := 0
  sendFaults := 0
  receiveFault := none
  leaving := false
  turns := [.listener]
  pipe := .fresh
  kept := []
  received := []
  log := []
  nextNonce := 0
  nextDraw := 0
  aliases := ⟨[]⟩
  stoppedAt := none

/-- Whether a listener serves its host no more. -/
def isStopped : Listener → Bool
  | .stopped _ => true
  | _ => false

/-- An event of the gateway takes place, if it can. -/
def happen (w : World) (e : Event PartnerId) : Option World :=
  (w.system.step? w.now e).map fun system =>
    { w with
      system
      stoppedAt :=
        if w.stoppedAt.isNone && isStopped system.listener then some w.now else w.stoppedAt }

/-- Whether there is room for reports in the pipe to the host, besides what is kept. -/
def hasRoom (w : World) : Bool := w.pipe.toHost.reports.length + w.kept.length < Gateway.pipeDepth

/-- A sender hands its next report to the host, unless the pipe is full. -/
def handOver (w : World) (sender : Sender) : Option World :=
  (w.system.pendingReport? sender).bind fun report =>
    let w := { w with kept := w.kept.erase sender }
    match w.sendFaults with
    | left + 1 => { w with sendFaults := left }.happen (.undelivered sender)
    | 0 =>
      match w.pipe.send .gateway report with
      | (.done (), pipe) => if w.hasRoom then { w with pipe }.happen (.delivered sender) else none
      | (.blocked, _) => none
      | (.failed _, _) => w.happen (.undelivered sender)

/-- The gateway receives. -/
def receive (w : World) : Option World :=
  match w.receiveFault with
  | some cause => { w with receiveFault := none }.happen (.failed cause)
  | none =>
    match w.pipe.receive .gateway with
    | (.done report, pipe) =>
      let draws := Draws.channelsFrom w.nextDraw
      { w with pipe, nextDraw := w.nextDraw + draws.length }.happen (.heard report draws)
    | (.blocked, _) => w.happen .missed
    | (.failed cause, _) => w.happen (.failed (.link cause))

/-- The listener takes a step, if it can. -/
def listen (w : World) : Option World :=
  match w.system.listener with
  | .idle => if w.leaving then w.happen .shutdown else w.receive
  | .gathering .. => w.receive
  | .replying .. => w.handOver .listener
  | .stopped _ => none

/-- Adds to the transcript. -/
def note (w : World) (entries : List Entry) : World := { w with log := entries.reverse ++ w.log }

/-- Replaces a device and writes down what it did. -/
def putPartner (w : World) (id : PartnerId) (p : Partner) (entries : List Entry) : World :=
  { w with partners := w.partners.setIfInBounds id p }.note entries

/-- Drops the call of a request that is no longer relayed. -/
def dropCall (w : World) (caller : DispatchId) : Relay PartnerId → World
  | .exchanging device =>
    match w.partners[device]? with
    | some p => w.putPartner device (p.drop caller) []
    | none => w
  | _ => w

/-- Lists the devices for a request, and hands it to the first of them. -/
def enumerate (w : World) (d : Dispatch PartnerId) : Option World :=
  match w.listFaults with
  | left + 1 =>
    { w with listFaults := left }.happen (.enumerated d.id (.error (.other "listing failed")))
  | 0 =>
    (w.happen (.enumerated d.id (.ok w.listed))).map fun w =>
      match w.listed.first? with
      | none => w
      | some device =>
        match w.partners[device]? with
        | none => w
        | some p =>
          let r := p.enter w.now d.id d.request (Draws.nonce w.nextNonce)
          { w with nextNonce := w.nextNonce + 1 }.putPartner device r.1 r.2

/-- The call of a request goes on: whether it finished, and the result. -/
def advanceCall (w : World) (d : Dispatch PartnerId) (device : PartnerId) :
    Progress (Except Error Bytes) × World :=
  match w.partners[device]? with
  | none => (.waiting none, w)
  | some p =>
    let r := p.advance d.request.length w.now d.id
    (r.1, w.putPartner device r.2 (p.entriesSince r.2))

/-- The relay of a request stops, or a keepalive is due. -/
def interrupt (w : World) (d : Dispatch PartnerId) (relay : Relay PartnerId) : World × Bool :=
  let stopped := (w.happen (.expired d.id)).or (w.happen (.aborted d.id))
  match stopped.map (·.dropCall d.id relay) with
  | some next => (next, true)
  | none =>
    match w.happen (.ticked d.id) with
    | some next => (next, true)
    | none => (w, false)

/-- Goes on with a step that may not be possible. -/
def orStay (w : World) : Option World → World × Bool
  | some next => (next, true)
  | none => (w, false)

/-- A request takes a step: the world afterwards, and whether there was one. -/
def relay (w : World) (d : Dispatch PartnerId) : World × Bool :=
  match d.stage with
  | .relaying .polling => w.orStay (w.enumerate d)
  | .relaying (.resting wake) =>
    match w.happen (.rested d.id) with
    | some next => (next, true)
    | none => w.interrupt d (.resting wake)
  | .relaying (.exchanging device) =>
    match w.advanceCall d device with
    | (.finished result, w) => w.orStay (w.happen (.answered d.id result))
    | (.waiting _, w) => w.interrupt d (.exchanging device)
  | .notifying .. | .answering .. => w.orStay (w.handOver (.dispatch d.id))
  | .cancelling device _ =>
    match w.partners[device]? with
    | none => w.orStay (w.happen (.deviceCancelled d.id))
    | some p =>
      let r := p.cancel w.now
      let w := w.putPartner device r.1 r.2
      w.orStay (w.happen (.deviceCancelled d.id))
  | .ended => (w, false)

/-- What the next step of the listener takes of its stretch: a receive asks whether it shall fail,
takes the lock of its end of the pipe, and then takes a report. -/
def effort (w : World) : Nat :=
  match w.system.listener with
  | .replying .. => 1
  | _ => 3

/-- The listener goes on until it has to wait, or has used up what is left of its stretch. -/
def listenOn : Nat → Nat → World → World × Bool
  | 0, _, w => (w, false)
  | fuel + 1, left, w =>
    if left < w.effort then (w, false)
    else
      match w.listen with
      | none => (w, false)
      | some next => ((listenOn fuel (left - w.effort) next).1, true)

/-- A request goes on until it has to wait. -/
def relayOn (id : DispatchId) : Nat → World → World × Bool
  | 0, w => (w, false)
  | fuel + 1, w =>
    match w.system.dispatch? id with
    | none => (w, false)
    | some d =>
      match w.relay d with
      | (next, false) => (next, false)
      | (next, true) => ((relayOn id fuel next).1, true)

/-- Whoever has a turn goes on: the world afterwards, and whether it could. A listener that waited
for a report needs nothing but the report. -/
def goOn (w : World) : Sender → World × Bool
  | .listener => listenOn stepLimit (stretch - 1 + w.effort) w
  | .dispatch id => relayOn id stepLimit w

/-- Whoever had a turn queues up behind the others and behind the requests that are new; those that
are over are forgotten. -/
def queueUp (w : World) (sender : Sender) : World :=
  let present := w.system.dispatches.map fun d => Sender.dispatch d.id
  let others := (w.turns.erase sender).filter fun other =>
    other == .listener || present.contains other
  let fresh := present.filter fun other => other != sender && !w.turns.contains other
  { w with turns := others ++ fresh ++ [sender] }

/-- Everybody has a turn: the world afterwards, and whether anybody could go on. -/
def round (w : World) : World × Bool :=
  w.turns.foldl
    (fun r sender =>
      match r.1.goOn sender with
      | (next, true) => (next.queueUp sender, true)
      | (next, false) => (next, r.2))
    (w, false)

/-- The host reads everything that is there. Nobody can go on, so whoever has a report to send has
waited for room. -/
def drain (w : World) : World :=
  let reports := w.pipe.toHost.reports
  { w with
    received := (reports.map (w.now, ·)).reverse ++ w.received
    aliases := reports.foldl Aliases.learn w.aliases
    pipe := { w.pipe with toHost := { w.pipe.toHost with reports := [] } }
    kept := w.turns.filter fun sender => (w.system.pendingReport? sender).isSome }

/-- Repeats rounds until nobody can go on and the host has read everything. -/
def settleFor : Nat → World → World
  | 0, w => w
  | fuel + 1, w =>
    match w.round with
    | (next, true) => settleFor fuel next
    | (next, false) =>
      if next.pipe.toHost.reports.isEmpty then next else settleFor fuel next.drain

/-- Everything happens that needs no time. -/
def settle (w : World) : World := settleFor stepLimit w

/-- When a request is due to go on. -/
def wakesOf (w : World) (d : Dispatch PartnerId) : List Time :=
  match d.stage with
  | .relaying relay =>
    let due : List Time :=
      match relay with
      | .polling => []
      | .resting wake => [wake]
      | .exchanging device =>
        match (w.advanceCall d device).1 with
        | .waiting wake => wake.toList
        | .finished _ => []
    d.deadline :: d.nextKeepalive :: due
  | _ => []

/-- When anybody is due to go on. -/
def wakes (w : World) : List Time :=
  let own : List Time :=
    match w.system.listener with
    | .gathering _ deadline => [deadline]
    | _ => []
  own ++ w.system.dispatches.flatMap w.wakesOf

/-- The next instant at which something is due. -/
def nextWake (w : World) : Option Time := (w.wakes.filter (w.now < ·)).min?

/-- Lets time pass up to an instant; every jump takes at least one unit of time. -/
def passUntil (target : Time) : Nat → World → World
  | 0, w => w
  | fuel + 1, w =>
    let w := w.settle
    match w.nextWake with
    | none => { w with now := target }
    | some wake =>
      if wake ≤ target then passUntil target fuel { w with now := wake }
      else { w with now := target }

/-- Lets some time pass. -/
def pass (w : World) (duration : Time) : World := passUntil (w.now + duration) (duration + 1) w

/-- The host puts a report into the pipe, if there is room. -/
def offer (w : World) (report : Bytes) : Option World :=
  match w.pipe.send .host (w.aliases.resolveReport report) with
  | (.done (), pipe) => some { w with pipe }
  | _ => none

/-- The host puts a report into the pipe and waits for room, but not for long. -/
def say (w : World) (report : Bytes) : World :=
  if w.pipe.toGateway.hasSender then
    match w.offer report with
    | some next => next
    | none =>
      let w := w.settle
      match w.offer report with
      | some next => next
      | none =>
        let w := w.pass 1
        (w.offer report).getD w
  else w

end World

/-- A message of the host as it is scripted. -/
structure MessageScript where
  channel : ChannelId
  command : UInt8
  payload : Bytes
  /-- The length that is declared, if it is not that of the payload. -/
  declared : Option UInt16
  dropped : List Nat
deriving DecidableEq, Repr

/-- Changes the declared length of an initial packet. -/
def redeclare (declared : Option UInt16) : Hid.Packet → Hid.Packet
  | .initial channel command length data =>
    .initial channel command (declared.getD length) data
  | packet => packet

/-- The reports of a scripted message. -/
def MessageScript.reports (m : MessageScript) : List Bytes :=
  let packets := Hid.messagePackets m.command m.channel m.payload Hid.reportSize
  let kept := packets.zipIdx.filter fun packet => !m.dropped.contains packet.2
  kept.map fun packet => (redeclare m.declared packet.1).encode Hid.reportSize

/-- A step of a script. -/
inductive Step where
  | say (reports : List Bytes)
  | sleep (duration : Time)
  | addDevice (partner : Partner)
  | clearDevices
  | failListing (times : Nat)
  | failSending (times : Nat)
  | failReceiving (cause : Error)
  | shutdown
  | disconnect

/-- Performs a step, and everything that needs no time. -/
def World.perform (w : World) : Step → World
  | .say reports => (reports.foldl World.say w).settle
  | .sleep duration => w.pass duration
  | .addDevice partner =>
    { w with
      partners := w.partners.push partner
      listed := w.listed.add w.partners.size }.settle
  | .clearDevices => { w with listed := w.listed.clear }.settle
  | .failListing times => { w with listFaults := times }.settle
  | .failSending times => { w with sendFaults := times }.settle
  | .failReceiving cause => { w with receiveFault := some cause }.settle
  | .shutdown => { w with leaving := true }.settle
  | .disconnect => { w with pipe := w.pipe.drop .host }.settle

/-- The request for a channel of its own, as a report. -/
def channelRequest : Bytes :=
  (Hid.messagePackets Hid.Command.init.toByte Hid.broadcast (Bytes.zeros Hid.nonceSize)
    Hid.reportSize).flatMap (Hid.Packet.encode Hid.reportSize)

/-- The host requests so many channels, one after the other. -/
def World.requestChannels (w : World) (count : Nat) : World :=
  (List.range count).foldl (fun w _ => w.perform (.say [channelRequest])) w

end Ctap.Rehearsal
