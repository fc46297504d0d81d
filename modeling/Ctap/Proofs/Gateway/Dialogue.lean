import Ctap.Gateway.Pipe
import Ctap.Proofs.Gateway.Books
import Ctap.Proofs.Hid.Framing

/-!
# A host in dialogue with a gateway

A host exchanges a message with a gateway, each at its end of a pipe. The host puts the packets of
its message into the pipe, and the gateway takes them; whatever the gateway sends goes into the pipe
and is taken by the host. Other users of the pipe may put reports into it as well. Time passes
between the events, and never goes back.

## Main definitions

* `Exchange.Reads`: how far an exchange has got with the reports that were sent to it.
* `Dialogue`, `Dialogue.Event`, `Dialogue.step?`: the state, what can happen, and what follows.
* `Dialogue.punctual`: the rule that nobody is late.
* `Dialogue.undisturbed`, `Dialogue.undisturbedOn`: the rules that others leave the pipe alone, or
  one channel of it.

## Main results

* `Dialogue.step?_eq_some`: what an event does.
* `Dialogue.gateway_step`: what it does to the gateway.
* `Dialogue.Ready.step`: while nobody is late, the books agree and time remains.
-/

namespace Ctap.Hid

open Link (Conversation Move)

/-! ### The host -/

namespace Reader

variable {r : Reader} {said : List Bytes} {result : Except Link.Error Bytes}

/-- How an exchange ends with what became of its reader, if it does. -/
def Outcome.result? : Outcome → Option (Except Link.Error Bytes)
  | .waiting _ => none
  | .gave payload _ => some (.ok payload)
  | .failed cause => some (.error cause)

/-- More packets do not change how an exchange has ended. -/
theorem result?_append (h : (r.feed said).result? = some result) (more : List Bytes) :
    (r.feed (said ++ more)).result? = some result := by
  rw [feed_append]
  cases hfeed : r.feed said with
  | waiting reader =>
    rw [hfeed] at h
    cases h
  | gave payload rest | failed cause =>
    rw [hfeed] at h
    exact h

end Reader

namespace Exchange

/-- The packets that are still to be sent. -/
def unsent : Exchange → List Bytes
  | writing packet rest _ => packet :: rest
  | _ => []

/-- How far an exchange has got that is read by `r`: of all that was `said` to it, the queue is
still to be taken, unless the exchange has ended. -/
inductive Reads (r : Reader) (said queue : List Bytes) : Exchange → Prop where
  | reading {reader : Reader} (feed : reader.feed queue = r.feed said) :
    Reads r said queue (.reading reader)
  | ended {result : Except Link.Error Bytes} (feed : (r.feed said).result? = some result) :
    Reads r said queue (.ended result)

variable {r : Reader} {said queue rest : List Bytes} {report : Bytes} {x : Exchange}
  {packets : List Bytes}

@[simp] theorem unsent_start : (start r (.ok packets)).unsent = packets := by
  cases packets <;> rfl

theorem sent_start (packet : Bytes) : (start r (.ok (packet :: rest))).sent (.ok ()) =
    start r (.ok rest) := by
  cases rest <;> rfl

theorem unsent_received (hmove : Conversation.move x = .receive) (r : Except Link.Error Bytes) :
    (x.received r).unsent = [] := by
  cases x with
  | reading reader =>
    rcases r with cause | raw
    · rfl
    · rw [received]
      split <;> rfl
  | writing | ended => cases hmove

/-- An exchange that sends its packets sends the first one, and then the others. -/
theorem unsent_of_move {packet : Bytes} (h : x = .start r (.ok x.unsent))
    (hmove : Conversation.move x = .send packet) :
    x.unsent = packet :: (x.sent (.ok ())).unsent ∧
      x.sent (.ok ()) = .start r (.ok (x.sent (.ok ())).unsent) := by
  cases hunsent : x.unsent with
  | nil =>
    rw [h, hunsent] at hmove
    cases hmove
  | cons first others =>
    rw [hunsent] at h
    subst h
    cases hmove
    rw [sent_start, unsent_start]
    exact ⟨rfl, rfl⟩

theorem Reads.start (r : Reader) : Reads r [] [] (.start r (.ok [])) := .reading rfl

theorem Reads.more (h : Reads r said queue x) (report : Bytes) :
    Reads r (said ++ [report]) (queue ++ [report]) x := by
  cases h with
  | reading feed => exact .reading (by rw [Reader.feed_append, Reader.feed_append, feed])
  | ended feed => exact .ended (Reader.result?_append feed _)

/-- The exchange takes a report. -/
theorem Reads.take (h : Reads r said (report :: rest) x)
    (hmove : Conversation.move x = .receive) : Reads r said rest (x.received (.ok report)) := by
  cases h with
  | @reading reader feed =>
    rw [received]
    rcases hpush : reader.push report with cause | ⟨next, _ | payload⟩
    · rw [Reader.feed_cons_error hpush] at feed
      exact .ended (by rw [← feed]; rfl)
    · rw [Reader.feed_cons_none hpush] at feed
      exact .reading feed
    · rw [Reader.feed_cons_some hpush] at feed
      exact .ended (by rw [← feed]; rfl)
  | ended => cases hmove

theorem Reads.result {result : Except Link.Error Bytes} (h : Reads r said queue (.ended result)) :
    (r.feed said).result? = some result := by
  cases h with
  | ended feed => exact feed

theorem Reads.move (h : Reads r said queue x) :
    Conversation.move x = .receive ∨ ∃ result, x = .ended result := by
  cases h with
  | reading => exact .inl rfl
  | ended => exact .inr ⟨_, rfl⟩

/-- An exchange that takes its reports goes on until enough was said. -/
theorem Reads.receive (h : Reads r said queue x) (hnone : (r.feed said).result? = none) :
    Conversation.move x = .receive := by
  cases h with
  | reading => rfl
  | ended feed =>
    rw [hnone] at feed
    cases feed

/-- An exchange that has taken all reports and goes on has not been told enough. -/
theorem Reads.waits (h : Reads r said [] x) (hmove : Conversation.move x = .receive) :
    (r.feed said).result? = none := by
  cases h with
  | reading feed =>
    rw [← feed]
    rfl
  | ended feed => cases hmove

end Exchange

end Ctap.Hid

namespace Ctap.Gateway

open Hid (ChannelId Command Exchange Packet)
open Link (Conversation Move)

/-- Whether an instant is not too late for the continuation of a message, nor for the request with
the number `own` while it is relayed. -/
def System.inTime {δ : Type} (s : System δ) (own : DispatchId) (now : Time) : Bool :=
  (match s.listener with
    | .gathering _ deadline => now ≤ deadline
    | _ => true) &&
  match s.dispatch? own with
  | some d => d.stage.relay?.isNone || now ≤ d.deadline
  | none => true

/-- A host with its exchange, and a gateway, at the ends of a pipe. -/
structure Dialogue (δ : Type) where
  now : Time
  host : Exchange
  pipe : Pipe
  gateway : System δ

namespace Dialogue

/-- What can happen in a dialogue. -/
inductive Event (δ : Type) where
  /-- The host puts its next packet into the pipe. -/
  | write
  | take
  /-- The gateway takes a report; the draws are random numbers for a new channel. -/
  | hear (draws : List ChannelId)
  /-- A sender of the gateway puts its next report into the pipe. -/
  | handOver (sender : Sender)
  /-- Something happens in the gateway that has nothing to do with the pipe. -/
  | inside (event : Gateway.Event δ)
  | intrude (report : Bytes)

/-- Whether an event of a gateway has nothing to do with its pipe. -/
def isInside {δ : Type} : Gateway.Event δ → Bool
  | .enumerated .. | .answered .. | .rested _ | .expired _ | .aborted _ | .ticked _
  | .deviceCancelled _ | .missed => true
  | _ => false

variable {δ : Type}

/-- The reports on their way to the gateway. -/
def toGateway (s : Dialogue δ) : List Bytes := s.pipe.toGateway.reports

/-- The reports on their way to the host. -/
def toHost (s : Dialogue δ) : List Bytes := s.pipe.toHost.reports

/-- The state after an event at the instant of the state, if the state permits it. -/
def happen? (s : Dialogue δ) : Event δ → Option (Dialogue δ)
  | .write =>
    match Conversation.move s.host with
    | .send packet =>
      match s.pipe.send .host packet with
      | (.done (), pipe) => some { s with pipe, host := s.host.sent (.ok ()) }
      | _ => none
    | _ => none
  | .take =>
    match Conversation.move s.host with
    | .receive =>
      match s.pipe.receive .host with
      | (.done report, pipe) => some { s with pipe, host := s.host.received (.ok report) }
      | _ => none
    | _ => none
  | .hear draws =>
    match s.pipe.receive .gateway with
    | (.done report, pipe) =>
      (s.gateway.step? s.now (.heard report draws)).map fun gateway => { s with pipe, gateway }
    | _ => none
  | .handOver sender =>
    (s.gateway.pendingReport? sender).bind fun report =>
      match s.pipe.send .gateway report with
      | (.done (), pipe) =>
        (s.gateway.step? s.now (.delivered sender)).map fun gateway => { s with pipe, gateway }
      | _ => none
  | .inside event =>
    if isInside event then
      (s.gateway.step? s.now event).map fun gateway => { s with gateway }
    else none
  | .intrude report =>
    match s.pipe.send .host report with
    | (.done (), pipe) => some { s with pipe }
    | _ => none

/-- The state after an event at an instant, if the state permits it. -/
def step? (s : Dialogue δ) (now : Time) (e : Event δ) : Option (Dialogue δ) :=
  if s.now ≤ now then { s with now }.happen? e else none

instance : Machine (Dialogue δ) (Time × Event δ) where
  next? s e := s.step? e.1 e.2

/-- A host that has a message for a gateway, before anything was put into the pipe. -/
def start (now : Time) (channel : ChannelId) (command : Command) (payload : Bytes)
    (gateway : System δ) : Dialogue δ where
  now := now
  host := .transact channel command payload Hid.reportSize
  pipe := .fresh
  gateway := gateway

/-- What happens in the gateway when something happens in a dialogue. -/
def gatewayEvent? (s : Dialogue δ) : Event δ → Option (Gateway.Event δ)
  | .hear draws => s.toGateway.head?.map (.heard · draws)
  | .handOver sender => some (.delivered sender)
  | .inside event => some event
  | _ => none

/-- What is recorded of an event, with its instant. -/
def record (s : Dialogue δ) (e : Time × Event δ) : List (Time × Happening) :=
  match s.gatewayEvent? e.2 with
  | some event => s.gateway.record (e.1, event)
  | none => []

/-! ### Rules -/

/-- The rule that nobody is late: the next packet of a message comes in time, and so does the answer
to the request with the number `own`. -/
def punctual (own : DispatchId) (s : Dialogue δ) (e : Time × Event δ) : Bool :=
  s.gateway.inTime own e.1 &&
    match e.2 with
    | .inside .missed => false
    | .inside (.expired id) => id != own
    | _ => true

/-- The rule that, moreover, others leave the pipe alone: nobody else puts a report into it, and of
the requests only the one with the number `own` does. -/
def undisturbed (own : DispatchId) (s : Dialogue δ) (e : Time × Event δ) : Bool :=
  punctual own s e &&
    match e.2 with
    | .intrude _ => false
    | .handOver (.dispatch id) => id == own
    | _ => true

/-- Whether a report is on a channel. -/
def isOn (channel : ChannelId) (report : Bytes) : Bool :=
  match Packet.decode report with
  | .ok packet => packet.channel == channel
  | .error _ => false

/-- The rule that nobody is late and others leave one channel alone. -/
def undisturbedOn (channel : ChannelId) (own : DispatchId) (s : Dialogue δ)
    (e : Time × Event δ) : Bool :=
  punctual own s e &&
    match e.2 with
    | .intrude report => !isOn channel report
    | .handOver (.dispatch id) => id == own || !(s.gateway.pendingReport? (.dispatch id)).any
        (isOn channel)
    | _ => true

/-! ### What an event does -/

/-- What an event makes of a dialogue. -/
inductive Turn (s : Dialogue δ) (now : Time) : Event δ → Dialogue δ → Prop where
  | write {packet : Bytes} (move : Conversation.move s.host = .send packet)
    (there : s.pipe.toGateway.hasReceiver = true) (room : s.toGateway.length < pipeDepth) :
    Turn s now .write
      { s with
        now
        pipe.toGateway.reports := s.toGateway ++ [packet]
        host := s.host.sent (.ok ()) }
  | take {report : Bytes} {rest : List Bytes} (move : Conversation.move s.host = .receive)
    (first : s.toHost = report :: rest) :
    Turn s now .take
      { s with
        now
        pipe.toHost.reports := rest
        host := s.host.received (.ok report) }
  | hear {draws : List ChannelId} {report : Bytes} {rest : List Bytes} {gateway : System δ}
    (first : s.toGateway = report :: rest)
    (step : s.gateway.step? now (.heard report draws) = some gateway) :
    Turn s now (.hear draws) { s with now, pipe.toGateway.reports := rest, gateway }
  | handOver {sender : Sender} {report : Bytes} {gateway : System δ}
    (pending : s.gateway.pendingReport? sender = some report)
    (there : s.pipe.toHost.hasReceiver = true) (room : s.toHost.length < pipeDepth)
    (step : s.gateway.step? now (.delivered sender) = some gateway) :
    Turn s now (.handOver sender)
      { s with now, pipe.toHost.reports := s.toHost ++ [report], gateway }
  | inside {event : Gateway.Event δ} {gateway : System δ} (inside : isInside event = true)
    (step : s.gateway.step? now event = some gateway) :
    Turn s now (.inside event) { s with now, gateway }
  | intrude {report : Bytes} (there : s.pipe.toGateway.hasReceiver = true)
    (room : s.toGateway.length < pipeDepth) :
    Turn s now (.intrude report)
      { s with now, pipe.toGateway.reports := s.toGateway ++ [report] }

variable {s t : Dialogue δ} {e : Event δ} {now : Time}

/-- What an event does, once its instant has come. -/
theorem happen?_eq_some : ({ s with now } : Dialogue δ).happen? e = some t ↔ s.Turn now e t := by
  constructor
  · intro h
    cases e with
    | write =>
      rw [happen?] at h
      split at h
      · rename_i packet hmove
        split at h
        · rename_i pipe hsend
          cases h
          obtain ⟨hthere, hroom, rfl⟩ := Pipe.send_host_eq_done.1 hsend
          exact .write hmove hthere hroom
        · cases h
      · cases h
    | take =>
      rw [happen?] at h
      split at h
      · rename_i hmove
        split at h
        · rename_i report pipe hreceive
          cases h
          obtain ⟨rest, hfirst, rfl⟩ := Pipe.receive_host_eq_done.1 hreceive
          exact .take hmove hfirst
        · cases h
      · cases h
    | hear draws =>
      rw [happen?] at h
      split at h
      · rename_i report pipe hreceive
        obtain ⟨gateway, hstep, rfl⟩ := Option.map_eq_some_iff.1 h
        obtain ⟨rest, hfirst, rfl⟩ := Pipe.receive_gateway_eq_done.1 hreceive
        exact .hear hfirst hstep
      · cases h
    | handOver sender =>
      obtain ⟨report, hpending, h⟩ := Option.bind_eq_some_iff.1 h
      split at h
      · rename_i pipe hsend
        obtain ⟨gateway, hstep, rfl⟩ := Option.map_eq_some_iff.1 h
        obtain ⟨hthere, hroom, rfl⟩ := Pipe.send_gateway_eq_done.1 hsend
        exact .handOver hpending hthere hroom hstep
      · cases h
    | inside event =>
      rw [happen?] at h
      split_ifs at h with hinside
      obtain ⟨gateway, hstep, rfl⟩ := Option.map_eq_some_iff.1 h
      exact .inside hinside hstep
    | intrude report =>
      rw [happen?] at h
      split at h
      · rename_i pipe hsend
        cases h
        obtain ⟨hthere, hroom, rfl⟩ := Pipe.send_host_eq_done.1 hsend
        exact .intrude hthere hroom
      · cases h
  · intro h
    cases h with
    | @write packet move there room =>
      have hsend : s.pipe.send .host packet = (.done (), _) :=
        Pipe.send_host_eq_done.2 ⟨there, room, rfl⟩
      simp only [happen?, move, hsend]
      rfl
    | @take report rest move first =>
      have hreceive : s.pipe.receive .host = (.done report, _) :=
        Pipe.receive_host_eq_done.2 ⟨rest, first, rfl⟩
      simp only [happen?, move, hreceive]
    | @hear draws report rest gateway first step =>
      have hreceive : s.pipe.receive .gateway = (.done report, _) :=
        Pipe.receive_gateway_eq_done.2 ⟨rest, first, rfl⟩
      simp only [happen?, hreceive, step, Option.map_some]
    | @handOver sender report gateway pending there room step =>
      have hsend : s.pipe.send .gateway report = (.done (), _) :=
        Pipe.send_gateway_eq_done.2 ⟨there, room, rfl⟩
      simp only [happen?, pending, Option.bind_some, hsend, step, Option.map_some]
      rfl
    | inside inside step => rw [happen?, if_pos inside, step, Option.map_some]
    | @intrude report there room =>
      have hsend : s.pipe.send .host report = (.done (), _) :=
        Pipe.send_host_eq_done.2 ⟨there, room, rfl⟩
      simp only [happen?, hsend]
      rfl

/-- **What an event does** at an instant. -/
theorem step?_eq_some : s.step? now e = some t ↔ s.now ≤ now ∧ s.Turn now e t := by
  rw [step?, ← happen?_eq_some]
  split_ifs with h <;> simp [h]

/-- What an event does to the gateway. -/
theorem gateway_step (h : s.step? now e = some t) :
    (∃ event, s.gatewayEvent? e = some event ∧ s.gateway.step? now event = some t.gateway ∧
      s.record (now, e) = s.gateway.record (now, event)) ∨
    t.gateway = s.gateway ∧ s.record (now, e) = [] := by
  obtain ⟨-, hturn⟩ := step?_eq_some.1 h
  cases hturn with
  | write | take | intrude => exact .inr ⟨rfl, rfl⟩
  | @hear draws report rest gateway first step =>
    have hevent : s.gatewayEvent? (.hear draws) = some (.heard report draws) := by
      change s.toGateway = _ at first
      rw [gatewayEvent?, first]
      rfl
    exact .inl ⟨_, hevent, step, by rw [record, hevent]⟩
  | handOver pending there room step => exact .inl ⟨_, rfl, step, rfl⟩
  | inside inside step => exact .inl ⟨_, rfl, step, rfl⟩

theorem mem_record {x : Time × Happening} (hx : x ∈ s.record (now, e)) :
    ∃ event, s.gatewayEvent? e = some event ∧ x.2 ∈ s.gateway.happenings now event := by
  rw [record] at hx
  split at hx
  · rename_i event hevent
    obtain ⟨y, hy, rfl⟩ := List.mem_map.1 hx
    exact ⟨event, hevent, hy⟩
  · cases hx

end Dialogue

/-! ### Time remains -/

namespace System

variable {s t : System δ} {now : Time} {e : Event δ} {own : DispatchId}

theorem inTime_iff : s.inTime own now = true ↔
    (∀ message deadline, s.listener = .gathering message deadline → now ≤ deadline) ∧
      ∀ d, s.dispatch? own = some d → ∀ relay, d.stage.relay? = some relay → now ≤ d.deadline := by
  rw [inTime, Bool.and_eq_true]
  refine and_congr ?_ ?_
  · cases s.listener <;> simp
  · rcases s.dispatch? own with _ | d
    · simp
    · simp only [Option.some.injEq, forall_eq', Bool.or_eq_true, decide_eq_true_eq]
      rcases d.stage.relay? with _ | relay <;> simp

/-- The host has its time for a message from the last packet on. -/
theorem listener_step (h : s.step? now e = some t) : t.listener = s.listener ∨
    (∃ message, t.listener = .gathering message (now + s.config.continuationTimeout)) ∨
    ∀ message deadline, t.listener ≠ .gathering message deadline := by
  have hreply (reports : List Bytes) :
      ∀ message deadline, Listener.reply reports ≠ .gathering message deadline := by
    intro message deadline
    cases reports <;> simp [Listener.reply]
  have hmiss {cause : Link.Error}
      (h : (s.listener.miss s.table cause).map (fun r => s.react now r.1 r.2) = some t) :
      ∀ message deadline, t.listener ≠ .gathering message deadline := by
    obtain ⟨⟨l, r⟩, hmiss, rfl⟩ := Option.map_eq_some_iff.1 h
    cases hl : s.listener with
    | gathering message deadline =>
      rw [hl] at hmiss
      cases hmiss
      exact hreply (errorReports message.channel (codeOf cause))
    | _ =>
      rw [hl] at hmiss
      cases hmiss
  have hproceed {draws : List ChannelId} {m : Inbound} {l : Listener} {r : Reaction}
      {pushed : Except Link.Error (Hid.Reassembler × Option Bytes)}
      (h : Listener.proceed s.config draws now s.table m pushed = some (l, r)) :
      (∃ message, l = .gathering message (now + s.config.continuationTimeout)) ∨
        ∀ message deadline, l ≠ .gathering message deadline := by
    rcases pushed with cause | ⟨reassembler, _ | payload⟩
    · cases h
      exact .inr (hreply _)
    · cases h
      exact .inl ⟨_, rfl⟩
    · obtain ⟨reaction, -, hnext⟩ := Option.map_eq_some_iff.1 h
      cases hnext
      exact .inr (hreply _)
  rcases hsubject : e.subject? with _ | id
  · refine .inr ?_
    cases e with
    | heard report draws =>
      obtain ⟨⟨l, r⟩, hhear, rfl⟩ := Option.map_eq_some_iff.1 h
      change (∃ message, l = _) ∨ ∀ message deadline, l ≠ _
      rw [Listener.hear.eq_def] at hhear
      split at hhear
      · rw [Listener.begin] at hhear
        split at hhear
        · cases hhear
          exact .inr (by simp)
        · cases hhear
          exact .inr (hreply _)
        · exact hproceed hhear
      · exact hproceed hhear
      · cases hhear
    | missed =>
      rw [step?, tire] at h
      split at h
      · split_ifs at h
        exact .inr (hmiss h)
      · cases h
    | failed cause =>
      rw [step?, hangUp] at h
      split at h
      · cases h
        exact .inr (by simp)
      · exact .inr (hmiss h)
    | shutdown =>
      rw [step?] at h
      split at h <;> cases h
      exact .inr (by simp)
    | delivered sender =>
      cases sender with
      | dispatch id => cases hsubject
      | listener =>
        rw [step?] at h
        split at h <;> cases h
        exact .inr (hreply _)
    | undelivered sender =>
      cases sender with
      | dispatch id => cases hsubject
      | listener =>
        rw [step?] at h
        split at h <;> cases h
        exact .inr (by simp)
    | _ => cases hsubject
  · rw [step?_of_subject hsubject, changeBoth, Option.bind_eq_some_iff] at h
    obtain ⟨d, -, h⟩ := h
    obtain ⟨r, -, rfl⟩ := Option.map_eq_some_iff.1 h
    exact .inl rfl

/-- **What happens in time leaves time.** -/
theorem inTime_step (hs : Books s) (hin : s.inTime own now = true) (h : s.step? now e = some t) :
    t.inTime own now = true := by
  obtain ⟨hlistener, hrelay⟩ := inTime_iff.1 hin
  refine inTime_iff.2 ⟨fun message deadline hgathering => ?_, fun d hd relay hd' => ?_⟩
  · rcases listener_step h with hsame | ⟨message', hnew⟩ | hnone
    · exact hlistener message deadline (hsame ▸ hgathering)
    · cases hnew.symm.trans hgathering
      exact Nat.le_add_right ..
    · exact absurd hgathering (hnone message deadline)
  · rcases step_cases h with ⟨id, d₀, d₁, table, -, hd₀, hturn, rfl⟩ | ⟨-, l, r, -, rfl⟩
    · rw [dispatch?_turn hs.alive hd₀ hturn] at hd
      split_ifs at hd with howns
      · cases hd
        subst howns
        obtain ⟨-, -, -, hdeadline, -⟩ := hturn.frame
        rcases hturn.relayed with ⟨-, hsame⟩ | ⟨-, hnone⟩
        · rw [hd'] at hsame
          obtain ⟨relay', hrelay'⟩ := Option.isSome_iff_exists.1 hsame.symm
          rw [hdeadline]
          exact hrelay d₀ hd₀ relay' hrelay'
        · rw [hnone] at hd'
          cases hd'
      · exact hrelay d hd relay hd'
    · rw [dispatch?_react, Option.or_eq_some_iff] at hd
      rcases hd with hd | ⟨-, hd⟩
      · obtain ⟨d₀, hd₀, rfl⟩ := Option.map_eq_some_iff.1 hd
        obtain ⟨-, -, -, hdeadline, hstage⟩ := told_frame r.signal d₀
        rw [hdeadline]
        exact hrelay d₀ hd₀ relay (hstage ▸ hd')
      · obtain ⟨a, -, rfl⟩ := Option.map_eq_some_iff.1 hd
        exact Nat.le_add_right ..

/-- Whether nothing has changed that matters to the listener, the request with the number `own` and
a channel without a request. -/
structure Apart (own : DispatchId) (s t : System δ) : Prop where
  listener : t.listener = s.listener
  found : t.dispatch? own = s.dispatch? own
  next : t.table.nextDispatch = s.table.nextDispatch
  free : ∀ channel, s.table.dispatchOn? channel = none → t.table.dispatchOn? channel = none

/-- What happens in a gateway, and has nothing to do with the pipe, concerns the request with the
number `own`, or else nothing that matters to it. -/
theorem inside_cases (own : DispatchId) (hs : Books s) (hinside : Dialogue.isInside e = true)
    (hmissed : e ≠ .missed) (h : s.step? now e = some t) :
    (∃ d d' table, e.subject? = some own ∧ s.dispatch? own = some d ∧
      d.Turn s.config now s.table e d' table ∧ t = { s with table }.put d') ∨
    e.subject? ≠ some own ∧ s.Apart own t := by
  rcases step_cases h with ⟨id, d, d', table, hsubject, hd, hturn, rfl⟩ | ⟨hnone, -⟩
  · by_cases howns : own = id
    · subst howns
      exact .inl ⟨d, d', table, hsubject, hd, hturn, rfl⟩
    · refine .inr ⟨by rw [hsubject]; simpa using Ne.symm howns, rfl, ?_, ?_, fun channel hfree => ?_⟩
      · rw [dispatch?_turn hs.alive hd hturn, if_neg howns]
      · change table.nextDispatch = _
        rcases hturn.relayed with ⟨rfl, -⟩ | ⟨rfl, -⟩
        · rfl
        · exact ChannelTable.nextDispatch_finish ..
      · change table.dispatchOn? channel = none
        rcases hturn.relayed with ⟨rfl, -⟩ | ⟨rfl, -⟩
        · exact hfree
        · rw [ChannelTable.dispatchOn?_finish, hfree, ite_self]
  · cases e with
    | missed => exact absurd rfl hmissed
    | heard | failed | shutdown | delivered | undelivered => cases hinside
    | _ => cases hnone

end System

namespace Dialogue

variable {s t : Dialogue δ} {e : Event δ} {now : Time} {own : DispatchId}

/-- Whether a dialogue is in order: both ends of the pipe are there, and it is not too late. -/
structure Ready (own : DispatchId) (s : Dialogue δ) : Prop where
  books : Books s.gateway
  gateway : s.pipe.toGateway.hasReceiver = true
  host : s.pipe.toHost.hasReceiver = true
  time : s.gateway.inTime own s.now = true

/-- **A dialogue remains in order** while nobody is late. -/
theorem Ready.step (hs : s.Ready own) (hpermits : punctual own s (now, e) = true)
    (h : s.step? now e = some t) : t.Ready own := by
  obtain ⟨htime, -⟩ := Bool.and_eq_true_iff.1 hpermits
  have hpipe : t.pipe.toGateway.hasReceiver = true ∧ t.pipe.toHost.hasReceiver = true ∧
      t.now = now := by
    obtain ⟨-, hturn⟩ := step?_eq_some.1 h
    cases hturn <;> exact ⟨hs.gateway, hs.host, rfl⟩
  obtain ⟨hgateway, hhost, rfl⟩ := hpipe
  rcases gateway_step h with ⟨event, -, hstep, -⟩ | ⟨hsame, -⟩
  · exact ⟨hs.books.step hstep, hgateway, hhost, System.inTime_step hs.books htime hstep⟩
  · exact ⟨hsame ▸ hs.books, hgateway, hhost, hsame ▸ htime⟩

theorem punctual_of_undisturbed {e : Time × Event δ} (h : undisturbed own s e = true) :
    punctual own s e = true :=
  (Bool.and_eq_true_iff.1 h).1

theorem step?_now (h : s.Turn s.now e t) : s.step? s.now e = some t :=
  step?_eq_some.2 ⟨Nat.le_refl _, h⟩

/-- Nothing is recorded of a request that is not there. -/
theorem not_recorded (hnone : s.gateway.dispatch? own = none) (h : s.step? now e = some t) :
    ∀ x ∈ s.record (now, e), x.2.subject? ≠ some own := by
  intro x hx hsubject
  rcases gateway_step h with ⟨event, -, hstep, hrecord⟩ | ⟨-, hrecord⟩
  · rw [hrecord] at hx
    obtain ⟨y, hy, rfl⟩ := List.mem_map.1 hx
    rw [System.subject?_of_happening hy] at hsubject
    rcases System.step_cases hstep with ⟨id, d, -, -, hid, hd, -⟩ | ⟨hid, -⟩
    · rw [hsubject] at hid
      cases hid
      rw [hnone] at hd
      cases hd
    · rw [hsubject] at hid
      cases hid
  · rw [hrecord] at hx
    cases hx

end Dialogue

end Ctap.Gateway
