import Ctap.Gateway.Dispatch
import Ctap.Gateway.Listener

/-!
# The gateway as a whole

A gateway listens to its host and relays any number of requests at the same time. Whatever happens
to it is an event: a report comes, a device answers, time runs out, a report is handed to the host.
Events come in any order that the state permits; each takes place at once.

## Main definitions

* `System`: the channel table, the listener, and the requests that are not over.
* `Event`: what can happen.
* `System.step?`: the state after an event, if the state permits it.
* `System.pendingReport?`: the report that a sender hands to the host next.
-/

namespace Ctap.Gateway

open Hid (ChannelId)

/-- Whoever sends reports to the host. -/
inductive Sender where
  | listener
  | dispatch (id : DispatchId)
deriving DecidableEq, Repr

/-- What can happen to a gateway: to its listener, which may miss the next packet of a message; to a
sender, whose next report is delivered or not; and to a request, which may be at the end of its rest
or of its time, and notices when it is to be given up. -/
inductive Event (δ : Type) where
  /-- The host sent a report; the draws are random numbers for a new channel. -/
  | heard (report : Bytes) (draws : List ChannelId)
  | missed
  | failed (cause : Error)
  | shutdown
  | delivered (sender : Sender)
  | undelivered (sender : Sender)
  | enumerated (id : DispatchId) (listed : Except Error (DeviceList δ))
  | answered (id : DispatchId) (result : Except Error Bytes)
  | rested (id : DispatchId)
  | expired (id : DispatchId)
  | aborted (id : DispatchId)
  | ticked (id : DispatchId)
  | deviceCancelled (id : DispatchId)

/-- The state of a gateway. -/
structure System (δ : Type) where
  config : Config
  table : ChannelTable
  listener : Listener
  /-- The requests that are not over, in the order of their acceptance. -/
  dispatches : List (Dispatch δ)

namespace System

variable {δ : Type}

/-- A gateway that has served nobody. -/
def fresh (config : Config) : System δ := ⟨config, .empty, .idle, []⟩

/-- The request with a number, if it is not over. -/
def dispatch? (s : System δ) (id : DispatchId) : Option (Dispatch δ) :=
  s.dispatches.find? (·.id == id)

/-- Whether a request is over. -/
def isOver (d : Dispatch δ) : Bool :=
  match d.stage with
  | .ended => true
  | _ => false

/-- Replaces a request, and forgets it if it is over. -/
def put (s : System δ) (d : Dispatch δ) : System δ :=
  { s with
    dispatches := (s.dispatches.map fun e => if e.id = d.id then d else e).filter (!isOver ·) }

/-- Tells a request that it is to be given up. -/
def notifyAbort (dispatches : List (Dispatch δ)) : Option (DispatchId × Abort) → List (Dispatch δ)
  | none => dispatches
  | some (id, reason) =>
    dispatches.map fun d => if d.id = id then { d with signal := some reason } else d

/-- Carries out a reaction of the listener. -/
def react (s : System δ) (now : Time) (listener : Listener) (r : Reaction) : System δ :=
  { s with
    table := r.table
    listener
    dispatches := notifyAbort s.dispatches r.signal ++
      (r.accepted.map (Dispatch.start s.config now)).toList }

/-- Changes a request. -/
def change (s : System δ) (id : DispatchId) (f : Dispatch δ → Option (Dispatch δ)) :
    Option (System δ) :=
  (s.dispatch? id).bind fun d => (f d).map s.put

/-- Changes a request and the channel table. -/
def changeBoth (s : System δ) (id : DispatchId)
    (f : Dispatch δ → ChannelTable → Option (Dispatch δ × ChannelTable)) : Option (System δ) :=
  (s.dispatch? id).bind fun d =>
    (f d s.table).map fun r => { s with table := r.2 }.put r.1

/-- What follows when no report can be received: a message that was begun is faulty, and an idle
listener stops. A host that went is no fault. -/
def hangUp (s : System δ) (now : Time) (cause : Error) : Option (System δ) :=
  match s.listener with
  | .idle =>
    let result : Except Error Unit :=
      if cause = .link .disconnected then .ok () else .error cause
    some { s with listener := .stopped result }
  | listener =>
    (listener.miss s.table .disconnected).map fun r => s.react now r.1 r.2

/-- What follows when the host is late with the next packet. -/
def tire (s : System δ) (now : Time) : Option (System δ) :=
  match s.listener with
  | .gathering _ deadline =>
    if deadline ≤ now then
      (s.listener.miss s.table .timeout).map fun r => s.react now r.1 r.2
    else none
  | _ => none

/-- The state after an event at an instant. -/
def step? (s : System δ) (now : Time) : Event δ → Option (System δ)
  | .heard report draws =>
    (s.listener.hear s.config draws now s.table report).map fun r => s.react now r.1 r.2
  | .missed => s.tire now
  | .failed cause => s.hangUp now cause
  | .shutdown =>
    match s.listener with
    | .idle => some { s with listener := .stopped (.ok ()) }
    | _ => none
  | .delivered .listener =>
    match s.listener with
    | .replying _ rest => some { s with listener := .reply rest }
    | _ => none
  | .undelivered .listener =>
    match s.listener with
    | .replying .. => some { s with listener := .idle }
    | _ => none
  | .delivered (.dispatch id) => s.change id Dispatch.delivered
  | .undelivered (.dispatch id) => s.change id Dispatch.undelivered
  | .enumerated id listed => s.change id (·.enumerated s.config now listed)
  | .answered id result => s.changeBoth id fun d table => d.answered s.config now table result
  | .rested id => s.change id (·.rested now)
  | .expired id => s.changeBoth id fun d table => d.expired now table
  | .aborted id => s.changeBoth id Dispatch.aborted
  | .ticked id => s.change id (·.ticked s.config now)
  | .deviceCancelled id => s.change id Dispatch.deviceCancelled

/-- The report that a sender hands to the host next. -/
def pendingReport? (s : System δ) : Sender → Option Bytes
  | .listener =>
    match s.listener with
    | .replying report _ => some report
    | _ => none
  | .dispatch id => (s.dispatch? id).bind Dispatch.pendingReport?

end System

end Ctap.Gateway
