import Ctap.DeviceList
import Ctap.Gateway.Reply

/-!
# Relaying a request

An accepted request is relayed to the first listed device. If there is none, or the exchange fails,
the gateway rests and tries again until the time for the request is up. Meanwhile it sends
keepalives to the host; while a keepalive is being sent nothing else happens to the request. When
the relay stops, its channel is freed, a device that still works on the request is asked to give it
up, and then the outcome is sent to the host.

## Main definitions

* `Relay`: where the attempts stand.
* `Outcome`: how a relay stops.
* `Stage`, `Dispatch`: a request from its acceptance to its last report.
-/

namespace Ctap.Gateway

open Hid (ChannelId Command)

/-- The status that answers a request cancelled by the host. -/
def statusCancelled : UInt8 := 0x2D

/-- Where the attempts to relay a request stand. -/
inductive Relay (δ : Type) where
  | polling
  | exchanging (device : δ)
  | resting (wake : Time)
deriving DecidableEq, Repr

/-- How a relay stops. -/
inductive Outcome where
  | response (body : Bytes)
  | timedOut
  | aborted (reason : Abort)
deriving DecidableEq, Repr

/-- The reports that tell the host about an outcome. A request dropped by INIT is not answered. -/
def Outcome.reports (channel : ChannelId) : Outcome → List Bytes
  | response body => answerReports .cbor channel body
  | timedOut => errorReports channel .messageTimeout
  | aborted .cancel => answerReports .cbor channel [statusCancelled]
  | aborted .resync => []

/-- The reports of a keepalive. -/
def keepaliveReports (channel : ChannelId) : List Bytes :=
  answerReports .keepalive channel [Hid.keepaliveProcessing]

/-- What happens to a request. -/
inductive Stage (δ : Type) where
  | relaying (relay : Relay δ)
  /-- It is being relayed, and a keepalive is being sent; its first report is next. -/
  | notifying (relay : Relay δ) (report : Bytes) (rest : List Bytes)
  /-- The relay stopped, and a device is asked to give the request up. -/
  | cancelling (device : δ) (outcome : Outcome)
  /-- The outcome is being sent; the first report is next. -/
  | answering (report : Bytes) (rest : List Bytes)
  | ended
deriving DecidableEq, Repr

/-- A request that was accepted. -/
structure Dispatch (δ : Type) where
  id : DispatchId
  channel : ChannelId
  request : Bytes
  /-- When its time is up. -/
  deadline : Time
  /-- When the next keepalive is due. -/
  nextKeepalive : Time
  signal : Option Abort
  stage : Stage δ
deriving DecidableEq, Repr

/-- How late a keepalive may be without moving the later ones. -/
def keepaliveSlack : Time := 5

/-- When the keepalive after one is due that was due at `due` and is sent now. -/
def keepaliveAfter (interval now due : Time) : Time :=
  if due + keepaliveSlack < now then now + interval else due + interval

namespace Dispatch

variable {δ : Type}

/-- A request that has just been accepted. -/
def start (config : Config) (now : Time) (a : Accepted) : Dispatch δ where
  id := a.id
  channel := a.channel
  request := a.request
  deadline := now + config.requestTimeout
  nextKeepalive := now + config.keepaliveInterval
  signal := none
  stage := .relaying .polling

/-- Sends reports and is over afterwards. -/
def answer : List Bytes → Stage δ
  | [] => .ended
  | report :: rest => .answering report rest

/-- Sends a keepalive and goes on relaying afterwards. -/
def notify (relay : Relay δ) : List Bytes → Stage δ
  | [] => .relaying relay
  | report :: rest => .notifying relay report rest

/-- What follows when a relay stops. -/
def stageAfter (channel : ChannelId) (outcome : Outcome) : Relay δ → Stage δ
  | .exchanging device => .cancelling device outcome
  | _ => answer (outcome.reports channel)

/-- Stops relaying. The channel is freed at once. -/
def stop (d : Dispatch δ) (table : ChannelTable) (outcome : Outcome) (relay : Relay δ) :
    Dispatch δ × ChannelTable :=
  ({ d with stage := stageAfter d.channel outcome relay }, table.finish d.channel d.id)

/-- The devices were listed. -/
def enumerated (d : Dispatch δ) (config : Config) (now : Time)
    (listed : Except Error (DeviceList δ)) : Option (Dispatch δ) :=
  match d.stage with
  | .relaying .polling =>
    let relay : Relay δ :=
      match listed with
      | .ok devices =>
        match devices.first? with
        | some device => .exchanging device
        | none => .resting (now + config.pollDelay)
      | .error _ => .resting (now + config.pollDelay)
    some { d with stage := .relaying relay }
  | _ => none

/-- The device finished its exchange. -/
def answered (d : Dispatch δ) (config : Config) (now : Time) (table : ChannelTable)
    (result : Except Error Bytes) : Option (Dispatch δ × ChannelTable) :=
  match d.stage with
  | .relaying (.exchanging _) =>
    match result with
    | .ok body => some (d.stop table (.response body) .polling)
    | .error _ => some ({ d with stage := .relaying (.resting (now + config.pollDelay)) }, table)
  | _ => none

/-- The rest is over. -/
def rested (d : Dispatch δ) (now : Time) : Option (Dispatch δ) :=
  match d.stage with
  | .relaying (.resting wake) =>
    if wake ≤ now then some { d with stage := .relaying .polling } else none
  | _ => none

/-- The time for the request is up. -/
def expired (d : Dispatch δ) (now : Time) (table : ChannelTable) :
    Option (Dispatch δ × ChannelTable) :=
  match d.stage with
  | .relaying relay => if d.deadline ≤ now then some (d.stop table .timedOut relay) else none
  | _ => none

/-- The request notices that it is to be given up. -/
def aborted (d : Dispatch δ) (table : ChannelTable) : Option (Dispatch δ × ChannelTable) :=
  match d.stage, d.signal with
  | .relaying relay, some reason => some (d.stop table (.aborted reason) relay)
  | _, _ => none

/-- A keepalive is due. -/
def ticked (d : Dispatch δ) (config : Config) (now : Time) : Option (Dispatch δ) :=
  match d.stage with
  | .relaying relay =>
    if d.nextKeepalive ≤ now then
      some { d with
        nextKeepalive := keepaliveAfter config.keepaliveInterval now d.nextKeepalive
        stage := notify relay (keepaliveReports d.channel) }
    else none
  | _ => none

/-- The device was asked to give the request up. -/
def deviceCancelled (d : Dispatch δ) : Option (Dispatch δ) :=
  match d.stage with
  | .cancelling _ outcome => some { d with stage := answer (outcome.reports d.channel) }
  | _ => none

/-- The report to be sent next. -/
def pendingReport? (d : Dispatch δ) : Option Bytes :=
  match d.stage with
  | .notifying _ report _ | .answering report _ => some report
  | _ => none

/-- The report was sent. -/
def delivered (d : Dispatch δ) : Option (Dispatch δ) :=
  match d.stage with
  | .notifying relay _ rest => some { d with stage := notify relay rest }
  | .answering _ rest => some { d with stage := answer rest }
  | _ => none

/-- The report could not be sent; the rest of its message is not tried. -/
def undelivered (d : Dispatch δ) : Option (Dispatch δ) :=
  match d.stage with
  | .notifying relay _ _ => some { d with stage := .relaying relay }
  | .answering .. => some { d with stage := .ended }
  | _ => none

/-- The device that works on the request. -/
def activeDevice? (d : Dispatch δ) : Option δ :=
  match d.stage with
  | .relaying (.exchanging device) | .notifying (.exchanging device) _ _ => some device
  | _ => none

end Dispatch

end Ctap.Gateway
