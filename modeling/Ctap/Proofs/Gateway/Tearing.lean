import Ctap.Gateway.Pipe
import Ctap.Proofs.Gateway.Messages

/-!
# Messages that are torn

A gateway sits at one end of a pipe, and a host does what it likes at the other. The listener and
every request put their reports into the pipe on their own, one by one, and none of them waits until
another one is through with its message. So a message is torn if a sender hands over a report on
its channel before the message is through, and only then. It does not come to that on a channel
whose host asks for one thing at a time.

## Main definitions

* `Attached`, `Attached.Event`, `Attached.step?`: the state, what can happen, and what follows.
* `Attached.handed`, `Attached.taken`: the reports that are handed over, and those that the host
  takes.
* `Attached.orderly`: the rule that nobody breaks into a message on a channel.
* `Attached.oneByOne`: the rule that the host asks for one thing at a time on a channel.
* `System.Alone`: the channels on which at most one sender is about to send.

## Main results

* `Attached.step?_cases`: what an event does.
* `Attached.Delivery.step`: the host takes what is handed over, in order.
* `Attached.Unbroken.step`: what breaks into no message leaves the messages whole.
* `System.Alone.step`: one thing at a time means one sender at a time.
* `Attached.whole_iff_orderly`: when the messages on a channel are whole.
-/

namespace Ctap.Gateway

open Hid (ChannelId Command Packet)

variable {δ : Type}

/-- Whether an event of a gateway takes place at its pipe. -/
def Event.isAtPipe : Event δ → Bool
  | .heard .. | .failed _ | .delivered _ | .undelivered _ => true
  | _ => false

namespace System

/-- Whoever may have reports to send. -/
def senders (s : System δ) : List Sender := .listener :: s.dispatches.map fun d => .dispatch d.id

/-- Whether somebody else than a sender is in the middle of a message on a channel. -/
def othersInMiddle (s : System δ) (channel : ChannelId) (sender : Sender) : Bool :=
  s.senders.any fun other => other != sender && s.inMiddle channel other

/-- Whether a gateway can come to a state. -/
def Reachable (config : Config) (s : System δ) : Prop :=
  ∃ events, Machine.run? Machine.free (fresh config) events = some s

variable {config : Config} {s t : System δ} {now : Time} {e : Event δ} {channel : ChannelId}
  {sender : Sender}

/-- Whoever is in the middle of a message is among those who may have reports to send. -/
theorem othersInMiddle_iff : s.othersInMiddle channel sender = true ↔
    ∃ other, other ≠ sender ∧ s.inMiddle channel other = true := by
  simp only [othersInMiddle, List.any_eq_true, Bool.and_eq_true, bne_iff_ne]
  refine ⟨fun ⟨other, _, hother⟩ => ⟨other, hother⟩, fun ⟨other, hother, hmiddle⟩ =>
    ⟨other, ?_, hother, hmiddle⟩⟩
  cases other with
  | listener => exact List.mem_cons_self ..
  | dispatch id =>
    rcases hd : s.dispatch? id with _ | d
    · simp [inMiddle, pendingReport?, hd] at hmiddle
    · exact List.mem_cons_of_mem _ (List.mem_map.2
        ⟨d, mem_of_dispatch? hd, by rw [id_of_dispatch? hd]⟩)

namespace Reachable

theorem step (hs : s.Reachable config) (h : s.step? now e = some t) : t.Reachable config := by
  obtain ⟨events, hrun⟩ := hs
  exact ⟨events ++ [(now, e)], Machine.run?_append hrun (Machine.run?_cons.2 ⟨rfl, t, h, rfl⟩)⟩

theorem books (hs : s.Reachable config) : Books s :=
  hs.elim fun _ hrun => Books.run hrun

theorem rests (hs : s.Reachable config) : s.Rests :=
  hs.elim fun _ hrun => Rests.run hrun

end Reachable

end System

/-- A gateway at one end of a pipe. -/
structure Attached (δ : Type) where
  pipe : Pipe
  gateway : System δ

namespace Attached

/-- What can happen to a gateway and its pipe. -/
inductive Event (δ : Type) where
  | put (report : Bytes)
  | take
  | leave
  /-- The gateway takes a report, or notices that none will come; the draws are random numbers for a
  new channel. -/
  | hear (draws : List ChannelId)
  /-- A sender of the gateway puts its next report into the pipe, or notices that the host left. -/
  | handOver (sender : Sender)
  /-- Something happens in the gateway that has nothing to do with the pipe. -/
  | inside (event : Gateway.Event δ)

/-- A fresh gateway and a fresh pipe. -/
def fresh (config : Config) : Attached δ := ⟨.fresh, .fresh config⟩

/-- The reports on their way to the gateway. -/
def toGateway (s : Attached δ) : List Bytes := s.pipe.toGateway.reports

/-- The reports on their way to the host. -/
def toHost (s : Attached δ) : List Bytes := s.pipe.toHost.reports

/-- Whether the host is there. -/
def hasHost (s : Attached δ) : Bool := s.pipe.toHost.hasReceiver

/-- The state after an event at an instant, if the state permits it. -/
def step? (s : Attached δ) (now : Time) : Event δ → Option (Attached δ)
  | .put report =>
    if s.hasHost then
      match s.pipe.send .host report with
      | (.done (), pipe) => some { s with pipe }
      | _ => none
    else none
  | .take =>
    match s.pipe.receive .host with
    | (.done _, pipe) => some { s with pipe }
    | _ => none
  | .leave => some { s with pipe := s.pipe.drop .host }
  | .hear draws =>
    match s.pipe.receive .gateway with
    | (.done report, pipe) =>
      (s.gateway.step? now (.heard report draws)).map fun gateway => { pipe, gateway }
    | (.failed cause, pipe) =>
      (s.gateway.step? now (.failed (.link cause))).map fun gateway => { pipe, gateway }
    | _ => none
  | .handOver sender =>
    (s.gateway.pendingReport? sender).bind fun report =>
      match s.pipe.send .gateway report with
      | (.done (), pipe) =>
        (s.gateway.step? now (.delivered sender)).map fun gateway => { pipe, gateway }
      | (.failed _, pipe) =>
        (s.gateway.step? now (.undelivered sender)).map fun gateway => { pipe, gateway }
      | _ => none
  | .inside event =>
    if event.isAtPipe then none
    else (s.gateway.step? now event).map fun gateway => { s with gateway }

instance : Machine (Attached δ) (Time × Event δ) where
  next? s e := s.step? e.1 e.2

/-- The report that is handed over by an event. -/
def handed (s : Attached δ) (e : Time × Event δ) : List Bytes :=
  match e.2 with
  | .handOver sender => if s.hasHost then (s.gateway.pendingReport? sender).toList else []
  | _ => []

/-- The report that the host takes by an event. -/
def taken (s : Attached δ) (e : Time × Event δ) : List Bytes :=
  match e.2 with
  | .take => s.toHost.head?.toList
  | _ => []

theorem handed_handOver (s : Attached δ) (now : Time) (sender : Sender) :
    s.handed (now, .handOver sender) =
      if s.hasHost then (s.gateway.pendingReport? sender).toList else [] := rfl

theorem handed_there {s : Attached δ} {sender : Sender} {report : Bytes}
    (hthere : s.hasHost = true) (hpending : s.gateway.pendingReport? sender = some report)
    (now : Time) : s.handed (now, .handOver sender) = [report] := by
  rw [handed_handOver, if_pos hthere, hpending, Option.toList_some]

/-! ### Rules -/

/-- The rule that nobody breaks into a message on a channel: while somebody is in the middle of one,
nobody else hands over a report on this channel. -/
def orderly (channel : ChannelId) (s : Attached δ) (e : Time × Event δ) : Bool :=
  match e.2 with
  | .handOver sender =>
    !((s.handed e).any (Dialogue.isOn channel) && s.gateway.othersInMiddle channel sender)
  | _ => true

/-- The rule that the host asks for one thing at a time on a channel: before a request of the
channel is over, the gateway takes nothing there but CANCEL. -/
def oneByOne (channel : ChannelId) (s : Attached δ) (e : Time × Event δ) : Bool :=
  match e.2 with
  | .hear _ =>
    s.toGateway.head?.all fun report =>
      s.gateway.listener.channel? report != some channel ||
      s.gateway.dispatches.all (·.channel != channel) ||
      (s.gateway.listener.completes report).any (·.Is .cancel)
  | _ => true

/-! ### What an event does -/

/-- What an event makes of a gateway and its pipe. -/
inductive Turn (s : Attached δ) (now : Time) : Event δ → Attached δ → Prop where
  | put {report : Bytes} (there : s.hasHost = true) (room : s.toGateway.length < pipeDepth) :
    Turn s now (.put report) { s with pipe.toGateway.reports := s.toGateway ++ [report] }
  | take {report : Bytes} {rest : List Bytes} (first : s.toHost = report :: rest) :
    Turn s now .take { s with pipe.toHost.reports := rest }
  | leave : Turn s now .leave { s with pipe := s.pipe.drop .host }
  | hear {draws : List ChannelId} {report : Bytes} {rest : List Bytes} {gateway : System δ}
    (first : s.toGateway = report :: rest)
    (step : s.gateway.step? now (.heard report draws) = some gateway) :
    Turn s now (.hear draws) { s with pipe.toGateway.reports := rest, gateway }
  /-- The gateway has noticed that no report will come. -/
  | deaf {draws : List ChannelId} {gateway : System δ} (none : s.toGateway = [])
    (gone : s.pipe.toGateway.hasSender = false)
    (step : s.gateway.step? now (.failed (.link .disconnected)) = some gateway) :
    Turn s now (.hear draws) { s with gateway }
  | handOver {sender : Sender} {report : Bytes} {gateway : System δ}
    (pending : s.gateway.pendingReport? sender = some report) (there : s.hasHost = true)
    (room : s.toHost.length < pipeDepth)
    (step : s.gateway.step? now (.delivered sender) = some gateway) :
    Turn s now (.handOver sender) { s with pipe.toHost.reports := s.toHost ++ [report], gateway }
  | lose {sender : Sender} {report : Bytes} {gateway : System δ}
    (pending : s.gateway.pendingReport? sender = some report) (gone : s.hasHost = false)
    (step : s.gateway.step? now (.undelivered sender) = some gateway) :
    Turn s now (.handOver sender) { s with gateway }
  | inside {event : Gateway.Event δ} {gateway : System δ} (inside : event.isAtPipe = false)
    (step : s.gateway.step? now event = some gateway) :
    Turn s now (.inside event) { s with gateway }

variable {s t : Attached δ} {now : Time} {e : Event δ} {channel : ChannelId} {config : Config}
  {events : List (Time × Event δ)} {sender : Sender} {report : Bytes}

/-- **What an event does.** -/
theorem step?_cases (h : s.step? now e = some t) : s.Turn now e t := by
  cases e with
  | put report =>
    rw [step?] at h
    split_ifs at h with hthere
    split at h
    · rename_i pipe hsend
      cases h
      obtain ⟨-, hroom, rfl⟩ := Pipe.send_host_eq_done.1 hsend
      exact .put hthere hroom
    · cases h
  | take =>
    rw [step?] at h
    split at h
    · rename_i report pipe hreceive
      cases h
      obtain ⟨rest, hfirst, rfl⟩ := Pipe.receive_host_eq_done.1 hreceive
      exact .take hfirst
    · cases h
  | leave =>
    cases h
    exact .leave
  | hear draws =>
    rw [step?] at h
    split at h
    · rename_i report pipe hreceive
      obtain ⟨gateway, hstep, rfl⟩ := Option.map_eq_some_iff.1 h
      obtain ⟨rest, hfirst, rfl⟩ := Pipe.receive_gateway_eq_done.1 hreceive
      exact .hear hfirst hstep
    · rename_i cause pipe hreceive
      obtain ⟨gateway, hstep, rfl⟩ := Option.map_eq_some_iff.1 h
      obtain ⟨hnone, hgone, rfl, rfl⟩ := Pipe.receive_gateway_eq_failed.1 hreceive
      exact .deaf hnone hgone hstep
    · cases h
  | handOver sender =>
    obtain ⟨report, hpending, h⟩ := Option.bind_eq_some_iff.1 h
    split at h
    · rename_i pipe hsend
      obtain ⟨gateway, hstep, rfl⟩ := Option.map_eq_some_iff.1 h
      obtain ⟨hthere, hroom, rfl⟩ := Pipe.send_gateway_eq_done.1 hsend
      exact .handOver hpending hthere hroom hstep
    · rename_i cause pipe hsend
      obtain ⟨gateway, hstep, rfl⟩ := Option.map_eq_some_iff.1 h
      obtain ⟨hgone, -, rfl⟩ := Pipe.send_gateway_eq_failed.1 hsend
      exact .lose hpending hgone hstep
    · cases h
  | inside event =>
    rw [step?] at h
    split_ifs at h with hinside
    obtain ⟨gateway, hstep, rfl⟩ := Option.map_eq_some_iff.1 h
    exact .inside (by simpa using hinside) hstep

/-! ### What the host takes -/

/-- How the reports that the host took go with those that were handed over. -/
inductive Delivery (s : Attached δ) (taken handed : List Bytes) : Prop where
  | there (there : s.hasHost = true) (all : taken ++ s.toHost = handed)
  | gone (gone : s.hasHost = false) (none : s.toHost = []) (some : taken <+: handed)

theorem Delivery.le {taken handed : List Bytes} (h : Delivery s taken handed) :
    taken <+: handed := by
  cases h with
  | there there all => exact all ▸ List.prefix_append ..
  | gone gone none some => exact some

/-- **Every event delivers in order.** -/
theorem Delivery.step {received handedOver : List Bytes} (hs : Delivery s received handedOver)
    (h : s.step? now e = some t) :
    Delivery t (received ++ taken s (now, e)) (handedOver ++ handed s (now, e)) := by
  have hsame {u : Attached δ} (hpipe : u.pipe.toHost = s.pipe.toHost) :
      Delivery u (received ++ []) (handedOver ++ []) := by
    rw [List.append_nil, List.append_nil]
    cases hs with
    | there there all =>
      exact .there (by rwa [hasHost, hpipe]) (by rwa [toHost, hpipe])
    | gone gone none some =>
      exact .gone (by rwa [hasHost, hpipe]) (by rwa [toHost, hpipe]) some
  cases step?_cases h with
  | put | hear | deaf | inside => exact hsame rfl
  | @take report rest first =>
    rw [taken, first, handed, List.append_nil]
    cases hs with
    | there there all =>
      refine .there there ?_
      rw [← all, first, List.append_assoc]
      rfl
    | gone gone none => cases none.symm.trans first
  | leave => exact .gone rfl rfl (by simpa [taken, handed] using hs.le)
  | @handOver sender report gateway pending there room step =>
    rw [handed_there there pending, taken, List.append_nil]
    cases hs with
    | there _ all =>
      refine .there there ?_
      rw [← all, List.append_assoc]
      rfl
    | gone gone => cases gone.symm.trans there
  | @lose sender report gateway pending gone step =>
    rw [handed_handOver, gone]
    exact hsame rfl

theorem Delivery.run
    (hrun : Machine.run? Machine.free (fresh config : Attached δ) events = some t) :
    Delivery t (Machine.observe taken (fresh config) events)
      (Machine.observe handed (fresh config) events) :=
  Machine.run?_induction_observe₂ (fun _ _ _ _ _ hs _ hstep => Delivery.step hs hstep)
    (.there rfl rfl) hrun

/-! ### What is handed over -/

/-- **What the rule forbids.** -/
theorem orderly_eq_false {e : Time × Event δ} : orderly channel s e = false ↔
    ∃ sender report other, e.2 = .handOver sender ∧ s.handed e = [report] ∧
      s.gateway.pendingReport? sender = some report ∧ Dialogue.isOn channel report = true ∧
      other ≠ sender ∧ s.gateway.inMiddle channel other = true := by
  obtain ⟨now, e⟩ := e
  cases e with
  | handOver sender =>
    simp only [orderly, Bool.not_eq_false', Bool.and_eq_true, System.othersInMiddle_iff,
      Event.handOver.injEq]
    constructor
    · rintro ⟨hon, other, hother, hmiddle⟩
      rw [handed_handOver] at hon ⊢
      split_ifs at hon with hthere
      · rcases hpending : s.gateway.pendingReport? sender with _ | report
        · rw [hpending] at hon
          cases hon
        · rw [hpending, Option.toList_some, List.any_cons, List.any_nil, Bool.or_false] at hon
          exact ⟨sender, report, other, rfl, by rw [if_pos hthere]; rfl, hpending, hon, hother,
            hmiddle⟩
      · cases hon
    · rintro ⟨_, report, other, rfl, hhanded, -, hon, hother, hmiddle⟩
      exact ⟨by simpa [hhanded] using hon, other, hother, hmiddle⟩
  | _ => simp [orderly]

/-- How far the senders have got with what was handed over, if nobody broke into a message on the
channel. -/
structure Unbroken (config : Config) (channel : ChannelId) (s : Attached δ)
    (handedOver : List Bytes) : Prop where
  reachable : s.gateway.Reachable config
  whole : Whole channel (handedOver.filter (Dialogue.isOn channel))
  flow : s.hasHost = true → Flow channel s.gateway (handedOver.filter (Dialogue.isOn channel))

namespace Unbroken

variable {handedOver : List Bytes}

theorem fresh (config : Config) (channel : ChannelId) :
    Unbroken config channel (Attached.fresh config : Attached δ) [] := by
  have hnobody (sender : Sender) :
      (System.fresh config : System δ).inMiddle channel sender = false := by
    cases sender <;> rfl
  have hflow : Flow channel (System.fresh config : System δ) ([] : List (List Bytes)).flatten :=
    .between nofun hnobody
  exact ⟨⟨[], rfl⟩, hflow.whole, fun _ => hflow⟩

/-- **Every event that breaks into no message** leaves the messages whole. -/
theorem step (hs : Unbroken config channel s handedOver)
    (hpermits : orderly channel s (now, e) = true) (h : s.step? now e = some t) :
    Unbroken config channel t (handedOver ++ s.handed (now, e)) := by
  obtain ⟨hreachable, hwhole, hflow⟩ := hs
  have hsilent {event : Gateway.Event δ} {u : Attached δ} (hhost : u.hasHost = s.hasHost)
      (hnone : s.hasHost = true → ∀ sender, event ≠ .delivered sender ∧ event ≠ .undelivered sender)
      (hstep : s.gateway.step? now event = some u.gateway) :
      Unbroken config channel u (handedOver ++ []) := by
    rw [List.append_nil]
    refine ⟨hreachable.step hstep, hwhole, fun hthere => ?_⟩
    rw [hhost] at hthere
    exact (hflow hthere).silent hreachable.books hstep (fun sender => (hnone hthere sender).1)
      fun sender => (hnone hthere sender).2
  have hstill {u : Attached δ} (hgateway : u.gateway = s.gateway)
      (hhost : u.hasHost = true → s.hasHost = true) :
      Unbroken config channel u (handedOver ++ []) := by
    rw [List.append_nil]
    exact ⟨hgateway ▸ hreachable, hwhole, fun hthere => hgateway ▸ hflow (hhost hthere)⟩
  cases step?_cases h with
  | put | take => exact hstill rfl id
  | leave => exact hstill rfl nofun
  | hear first step => exact hsilent rfl (fun _ sender => by simp) step
  | deaf none gone step => exact hsilent rfl (fun _ sender => by simp) step
  | inside inside step =>
    refine hsilent rfl (fun _ sender => ⟨?_, ?_⟩) step <;> (rintro rfl; cases inside)
  | @lose sender report gateway pending gone step =>
    rw [handed_handOver, gone]
    exact hsilent rfl (fun there => absurd (gone.symm.trans there) (by decide)) step
  | @handOver sender report gateway pending there room step =>
    have hhanded := handed_there there pending now
    have hothers (hon : Dialogue.isOn channel report = true) (other : Sender)
        (hother : other ≠ sender) : s.gateway.inMiddle channel other = false := by
      by_contra hmiddle
      have := orderly_eq_false.2 ⟨sender, report, other, rfl, hhanded, pending, hon, hother,
        by simpa using hmiddle⟩
      exact absurd (hpermits.symm.trans this) (by decide)
    have hgo : Flow channel gateway
        ((handedOver ++ [report]).filter (Dialogue.isOn channel)) := by
      rw [List.filter_append]
      exact (hflow there).deliver hreachable.books hreachable.rests step pending hothers
    rw [hhanded]
    exact ⟨hreachable.step step, hgo.whole, fun _ => hgo⟩

theorem run (hrun : Machine.run? (orderly channel) (Attached.fresh config) events = some t) :
    Unbroken config channel t (Machine.observe handed (Attached.fresh config) events) :=
  Machine.run?_induction_observe (fun _ _ _ _ hs hpermits hstep => step hs hpermits hstep)
    (fresh config channel) hrun

end Unbroken

end Attached

/-! ### One thing at a time -/

/-- Whether a listener has nothing to do with a channel. -/
structure Listener.IsOff (channel : ChannelId) (l : Listener) : Prop where
  gathers : ∀ m deadline, l = .gathering m deadline → m.channel ≠ channel
  replies : ∀ report ∈ l.queued, Dialogue.isOn channel report = false

namespace Listener

variable {config : Config} {draws : List ChannelId} {now : Time} {table : ChannelTable}
  {l next : Listener} {r : Reaction} {report : Bytes} {m : Asked} {channel c : ChannelId}

theorem IsOff.idle (channel : ChannelId) : Listener.idle.IsOff channel :=
  ⟨nofun, nofun⟩

theorem IsOff.reply {reports : List Bytes} (h : IsMessage c reports) (hc : c ≠ channel) :
    (Listener.reply reports).IsOff channel := by
  refine ⟨fun m deadline hgathering => absurd hgathering (reply_ne_gathering reports m deadline),
    fun report hreport => ?_⟩
  rw [queued_reply] at hreport
  have hrest : IsRest c reports := ⟨reports, h, List.suffix_rfl⟩
  rw [hrest.isOn_eq hreport]
  exact beq_eq_false_iff_ne.2 hc

/-- A report that is seen on another channel leads to nothing on a channel. -/
theorem After.isOff {seen : Option ChannelId} {accepted : Option Accepted}
    (h : After seen next accepted) (hseen : seen ≠ some channel) : next.IsOff channel := by
  cases h with
  | quiet | accepts => exact .idle channel
  | replies on message => exact .reply message fun hc => hseen (hc ▸ on)
  | gathers on =>
    refine ⟨?_, nofun⟩
    rintro m deadline hsame hc
    cases hsame
    exact hseen (hc ▸ on)

/-- There is no reply to CANCEL, and no request is accepted. -/
theorem hear_cancel (hm : l.completes report = some m) (his : m.Is .cancel)
    (h : l.hear config draws now table report = some (next, r)) :
    next = idle ∧ r.accepted = none := by
  rcases hear_cases h with ⟨m', hm', hrespond, rfl⟩ | ⟨hnone, -⟩
  · cases hm.symm.trans hm'
    have hfollows := respond_cases hrespond
    cases hfollows with
    | accepted is | resynced is => cases his.unique is
    | cancelled => exact ⟨rfl, rfl⟩
    | idle idle other => exact absurd (.inr (.inl his)) other
  · cases hm.symm.trans hnone

end Listener

namespace System

/-- Whether at most one request of a channel is not over, and the listener has nothing to do with
the channel until it is. -/
structure Alone (channel : ChannelId) (s : System δ) : Prop where
  unique : ∀ id id' d d', s.dispatch? id = some d → s.dispatch? id' = some d' →
    d.channel = channel → d'.channel = channel → id = id'
  /-- The listener has nothing to do with the channel. -/
  listener : ∀ id d, s.dispatch? id = some d → d.channel = channel → s.listener.IsOff channel

variable {s t : System δ} {now : Time} {e : Event δ} {channel : ChannelId} {config : Config}
  {sender sender' : Sender}

/-- A listener that has nothing to do with a channel has not, unless it hears a report there. -/
theorem isOff_step (hs : s.listener.IsOff channel) (h : s.step? now e = some t)
    (hheard : ∀ report draws, e = .heard report draws →
      s.listener.channel? report = some channel → t.listener = .idle) :
    t.listener.IsOff channel := by
  rcases listener_cases h with ⟨-, hsame⟩ | ⟨-, hbecomes⟩
  · exact hsame ▸ hs
  · generalize s.listener = l at hs hbecomes hheard
    generalize t.listener = next at hbecomes hheard ⊢
    cases hbecomes with
    | @heard report draws next r hear =>
      by_cases hseen : l.channel? report = some channel
      · exact hheard report draws rfl hseen ▸ .idle channel
      · exact (Listener.hear_after hear).isOff hseen
    | gaveUp gathering =>
      exact .reply (.errorPacket ..) (hs.gathers _ _ gathering)
    | stopped | lost => exact ⟨nofun, nofun⟩
    | @sent report rest replying =>
      refine ⟨fun m deadline hgathering =>
        absurd hgathering (Listener.reply_ne_gathering rest m deadline), fun r hr => ?_⟩
      rw [Listener.queued_reply] at hr
      exact hs.replies r (by rw [replying]; exact List.mem_cons_of_mem _ hr)

namespace Alone

theorem fresh (config : Config) (channel : ChannelId) :
    (System.fresh config : System δ).Alone channel :=
  ⟨nofun, nofun⟩

/-- **One thing at a time**: whoever is alone remains so if the gateway takes nothing but CANCEL on
the channel before a request there is over. -/
theorem step (hs : s.Alone channel) (hbooks : Books s) (h : s.step? now e = some t)
    (hask : ∀ report draws, e = .heard report draws →
      s.listener.channel? report = some channel →
        (∀ id d, s.dispatch? id = some d → d.channel ≠ channel) ∨
        ∃ m, s.listener.completes report = some m ∧ m.Is .cancel) : t.Alone channel := by
  have hnext {report : Bytes} {draws : List ChannelId} {next : Listener} {r : Reaction}
      (he : e = .heard report draws)
      (hhear : s.listener.hear s.config draws now s.table report = some (next, r)) :
      t.listener = next := by
    rw [he, step?, hhear] at h
    cases h
    rfl
  -- A request is accepted on the channel only if no other one is there.
  have hfirst {report : Bytes} {draws : List ChannelId} {next : Listener} {r : Reaction}
      {a : Accepted} (he : e = .heard report draws)
      (hhear : s.listener.hear s.config draws now s.table report = some (next, r))
      (ha : r.accepted = some a) (hon : a.channel = channel) :
      next = .idle ∧ ∀ id d, s.dispatch? id = some d → d.channel ≠ channel := by
    have hafter := Listener.hear_after hhear
    rw [ha] at hafter
    generalize hseen : s.listener.channel? report = seen at hafter
    cases hafter with
    | accepts on =>
      refine ⟨rfl, (hask report draws he (by rw [hseen, on, hon])).resolve_right ?_⟩
      rintro ⟨m, hm, his⟩
      cases ha.symm.trans (Listener.hear_cancel hm his hhear).2
  refine ⟨fun id id' d d' hd hd' hon hon' => ?_, fun id d hd hon => ?_⟩
  · rcases dispatch?_step hbooks.alive h hd with ⟨d₀, hd₀, hold⟩ |
      ⟨report, draws, next, r, a, he, hhear, ha, rfl, hnew⟩ <;>
    rcases dispatch?_step hbooks.alive h hd' with ⟨d₁, hd₁, hold'⟩ |
      ⟨report', draws', next', r', a', he', hhear', ha', rfl, hnew'⟩
    · exact hs.unique id id' d₀ d₁ hd₀ hd₁ (hold.trans hon) (hold'.trans hon')
    · exact absurd (hold.trans hon) ((hfirst he' hhear' ha' (hnew'.trans hon')).2 id d₀ hd₀)
    · exact absurd (hold'.trans hon') ((hfirst he hhear ha (hnew.trans hon)).2 id' d₁ hd₁)
    · cases he.symm.trans he'
      cases hhear.symm.trans hhear'
      cases ha.symm.trans ha'
      rfl
  · rcases dispatch?_step hbooks.alive h hd with ⟨d₀, hd₀, hold⟩ |
      ⟨report, draws, next, r, a, he, hhear, ha, rfl, hnew⟩
    · refine isOff_step (hs.listener id d₀ hd₀ (hold.trans hon)) h fun report draws he hseen => ?_
      rcases hask report draws he hseen with hnone | ⟨m, hm, his⟩
      · exact absurd (hold.trans hon) (hnone id d₀ hd₀)
      · rw [he] at h
        obtain ⟨⟨next, r⟩, hhear, -⟩ := Option.map_eq_some_iff.1 h
        rw [hnext he hhear, (Listener.hear_cancel hm his hhear).1]
    · rw [hnext he hhear, (hfirst he hhear ha (hnew.trans hon)).1]
      exact .idle channel

/-- Whoever is alone is the only one who sends on the channel. -/
theorem sender_eq (hs : s.Alone channel) (hreachable : s.Reachable config) {report report' : Bytes}
    (hpending : s.pendingReport? sender = some report)
    (hpending' : s.pendingReport? sender' = some report')
    (hon : Dialogue.isOn channel report = true) (hon' : Dialogue.isOn channel report' = true) :
    sender = sender' := by
  obtain ⟨events, hrun⟩ := hreachable
  have hdispatch {id : DispatchId} {report : Bytes}
      (hpending : s.pendingReport? (.dispatch id) = some report)
      (hon : Dialogue.isOn channel report = true) :
      ∃ d, s.dispatch? id = some d ∧ d.channel = channel := by
    obtain ⟨d, hd, hpending⟩ := Option.bind_eq_some_iff.1 hpending
    rw [Dispatch.pendingReport?_eq_head?] at hpending
    rw [(Dispatch.isRest_run hrun hd).isOn_eq (List.mem_of_head? hpending)] at hon
    exact ⟨d, hd, beq_iff_eq.1 hon⟩
  have hlistener {id : DispatchId} {report report' : Bytes}
      (hpending : s.pendingReport? .listener = some report)
      (hpending' : s.pendingReport? (.dispatch id) = some report')
      (hon : Dialogue.isOn channel report = true)
      (hon' : Dialogue.isOn channel report' = true) : False := by
    obtain ⟨d, hd, hchannel⟩ := hdispatch hpending' hon'
    rw [pendingReport?_eq_head?] at hpending
    have := (hs.listener id d hd hchannel).replies report (List.mem_of_head? hpending)
    exact absurd (hon.symm.trans this) (by decide)
  cases sender with
  | listener =>
    cases sender' with
    | listener => rfl
    | dispatch id => exact (hlistener hpending hpending' hon hon').elim
  | dispatch id =>
    cases sender' with
    | listener => exact (hlistener hpending' hpending hon' hon).elim
    | dispatch id' =>
      obtain ⟨d, hd, hchannel⟩ := hdispatch hpending hon
      obtain ⟨d', hd', hchannel'⟩ := hdispatch hpending' hon'
      rw [hs.unique id id' d d' hd hd' hchannel hchannel']

end Alone

end System

namespace Attached

variable {s t : Attached δ} {channel : ChannelId} {config : Config}
  {events : List (Time × Event δ)}

private theorem oneByOne_hear {now : Time} {draws : List ChannelId} {report : Bytes}
    {rest : List Bytes} (hpermits : oneByOne channel s (now, .hear draws) = true)
    (hfirst : s.toGateway = report :: rest)
    (hseen : s.gateway.listener.channel? report = some channel) :
    (∀ id d, s.gateway.dispatch? id = some d → d.channel ≠ channel) ∨
      ∃ m, s.gateway.listener.completes report = some m ∧ m.Is .cancel := by
  rw [oneByOne] at hpermits
  simp only [hfirst, List.head?_cons, Option.all_some, hseen, bne_self_eq_false, Bool.false_or,
    Bool.or_eq_true, List.all_eq_true, bne_iff_ne, Option.any_eq_true, decide_eq_true_eq]
    at hpermits
  exact hpermits.imp_left fun hnone id d hd => hnone d (System.mem_of_dispatch? hd)

/-- **Who asks for one thing at a time** is never told two things at a time. -/
theorem orderly_of_oneByOne
    (hrun : Machine.run? (oneByOne channel) (fresh config : Attached δ) events = some t) :
    Machine.run? (orderly channel) (fresh config) events = some t := by
  refine Machine.run?_of_permits
    (P := fun s : Attached δ => s.gateway.Reachable config ∧ s.gateway.Alone channel)
    (fun s e t hs hpermits hstep => ⟨?_, ?_⟩) ⟨⟨[], rfl⟩, .fresh config channel⟩ hrun
  · by_contra hbroken
    obtain ⟨sender, report, other, -, -, hpending, hon, hother, hmiddle⟩ :=
      orderly_eq_false.1 (by simpa using hbroken)
    obtain ⟨report', hpending', hcontinues⟩ := Option.any_eq_true .. |>.1 hmiddle
    have hon' : Dialogue.isOn channel report' = true := by
      rw [isOn_of_continues hcontinues, beq_self_eq_true]
    exact hother (hs.2.sender_eq hs.1 hpending' hpending hon' hon)
  · obtain ⟨now, e⟩ := e
    obtain ⟨hreachable, halone⟩ := hs
    have hdeaf {event : Gateway.Event δ} {gateway : System δ}
        (hunheard : ∀ report draws, event ≠ .heard report draws)
        (hgateway : s.gateway.step? now event = some gateway) :
        gateway.Reachable config ∧ gateway.Alone channel :=
      ⟨hreachable.step hgateway, halone.step hreachable.books hgateway
        fun report draws he => absurd he (hunheard report draws)⟩
    cases step?_cases hstep with
    | put | take | leave => exact ⟨hreachable, halone⟩
    | deaf none gone step => exact hdeaf (by simp) step
    | handOver pending there room step => exact hdeaf (by simp) step
    | lose pending gone step => exact hdeaf (by simp) step
    | inside inside step =>
      refine hdeaf ?_ step
      rintro report draws rfl
      cases inside
    | hear first step =>
      refine ⟨hreachable.step step, halone.step hreachable.books step ?_⟩
      rintro report draws he hseen
      cases he
      exact oneByOne_hear hpermits first hseen

/-! ### When messages are whole -/

/-- Once somebody has broken into a message, it is torn. -/
theorem torn_of_broken
    (hrun : Machine.run? Machine.free (fresh config : Attached δ) events = some t)
    (hbroken : Machine.run? (orderly channel) (fresh config) events ≠ some t) :
    Torn channel
      ((Machine.observe handed (fresh config) events).filter (Dialogue.isOn channel)) := by
  rcases Machine.run?_or_broken (orderly channel) hrun with hall |
    ⟨before, e, after, u, rfl, hbefore, hnext, hfirst⟩
  · exact absurd hall hbroken
  · obtain ⟨sender, report, other, he, hhanded, hpending, hon, hother, hmiddle⟩ :=
      orderly_eq_false.1 hfirst
    obtain ⟨v, hv⟩ := Option.isSome_iff_exists.1 hnext
    have hso := Unbroken.run hbefore
    have hthere : u.hasHost = true := by
      obtain ⟨now, e⟩ := e
      cases he
      rw [handed_handOver] at hhanded
      by_contra hgone
      rw [if_neg hgone] at hhanded
      cases hhanded
    rw [Machine.observe_append hbefore, Machine.observe_cons hv, hhanded, List.filter_append,
      List.singleton_append, List.filter_cons_of_pos hon]
    exact (hso.flow hthere).torn hso.reachable.rests hpending hon hother hmiddle _

/-- **Messages on a channel are whole if and only if nobody breaks into one there.** The host takes
the reports in the order in which they were handed over. On a channel, these are whole messages one
after the other, the last of them perhaps under way, if and only if no report on the channel was
handed over by one sender while another was in the middle of a message there. Then the messages
that the host takes there are whole, and all of those that were handed over are complete when
nobody is in the middle of one. It is so on every channel whose host asks for one thing at a
time. -/
theorem whole_iff_orderly {received handedOver : List Bytes}
    (hrun : Machine.run? Machine.free (fresh config : Attached δ) events = some t)
    (hreceived : received = Machine.observe taken (fresh config : Attached δ) events)
    (hhanded : handedOver = Machine.observe handed (fresh config : Attached δ) events)
    (channel : ChannelId) :
    received <+: handedOver ∧
    (Whole channel (handedOver.filter (Dialogue.isOn channel)) ↔
      Machine.run? (orderly channel) (fresh config) events = some t) ∧
    (Machine.run? (orderly channel) (fresh config) events = some t →
      Whole channel (received.filter (Dialogue.isOn channel)) ∧
      (t.hasHost = true → (∀ sender, t.gateway.inMiddle channel sender = false) →
        ∃ messages : List (List Bytes), (∀ message ∈ messages, IsMessage channel message) ∧
          handedOver.filter (Dialogue.isOn channel) = messages.flatten)) ∧
    (Machine.run? (oneByOne channel) (fresh config) events = some t →
      Machine.run? (orderly channel) (fresh config) events = some t) := by
  subst hreceived hhanded
  have hle := (Delivery.run hrun).le
  refine ⟨hle, ⟨fun hwhole => ?_, fun horderly => (Unbroken.run horderly).whole⟩,
    fun horderly => ?_, orderly_of_oneByOne⟩
  · by_contra hbroken
    exact (torn_of_broken hrun hbroken).not_whole hwhole
  · have hso := Unbroken.run horderly
    exact ⟨hso.whole.take (hle.filter _), fun hthere hnobody => (hso.flow hthere).complete hnobody⟩

/-- The reports of a PING of 60 octets, and of the reply to it. -/
def pingReports : List Bytes := answerReports .ping 5 (Bytes.zeros 60)

/-- A CBOR request is handed to a device, a PING comes on its channel, and the device answers. The
senders hand over one report each, in the given order, and then the host takes three reports. -/
def pingedRun (senders : List Sender) : List (Time × Event Unit) :=
  (answerReports .cbor 5 [4]).map (0, .put ·) ++
  [(0, .hear []), (0, .inside (.enumerated 0 (.ok (.ofList [()]))))] ++
  pingReports.map (10, .put ·) ++
  [(10, .hear []), (10, .hear []), (20, .inside (.answered 0 (.ok [0])))] ++
  senders.map (20, .handOver ·) ++ List.replicate 3 (30, .take)

set_option maxRecDepth 8000 in
/-- The messages are whole if the reply is handed over first. -/
theorem whole_when_ping_is_first : ∃ t received handedOver,
    Machine.run? Machine.free (fresh .standard)
      (pingedRun [.listener, .listener, .dispatch 0]) = some t ∧
    received = Machine.observe taken (fresh .standard)
      (pingedRun [.listener, .listener, .dispatch 0]) ∧
    handedOver = Machine.observe handed (fresh .standard)
      (pingedRun [.listener, .listener, .dispatch 0]) ∧
    received = pingReports ++ answerReports .cbor 5 [0] ∧
    received <+: handedOver ∧ Whole 5 (received.filter (Dialogue.isOn 5)) := by
  obtain ⟨t, received, handedOver, hrun, hreceived, hhanded, hreports, horderly⟩ :
      ∃ t received handedOver,
        Machine.run? Machine.free (fresh .standard)
          (pingedRun [.listener, .listener, .dispatch 0]) = some t ∧
        received = Machine.observe taken (fresh .standard)
          (pingedRun [.listener, .listener, .dispatch 0]) ∧
        handedOver = Machine.observe handed (fresh .standard)
          (pingedRun [.listener, .listener, .dispatch 0]) ∧
        received = pingReports ++ answerReports .cbor 5 [0] ∧
        Machine.run? (orderly 5) (fresh .standard)
          (pingedRun [.listener, .listener, .dispatch 0]) = some t :=
    ⟨_, _, _, rfl, rfl, rfl, rfl, rfl⟩
  obtain ⟨hle, -, hwhole, -⟩ := whole_iff_orderly hrun hreceived hhanded 5
  exact ⟨t, received, handedOver, hrun, hreceived, hhanded, hreports, hle, (hwhole horderly).1⟩

/-- The settings of a gateway that waits 50 ms for the next packet of a message. -/
def impatient : Config := { Config.standard with continuationTimeout := 50 }

/-- An answer of a device as long as a message can be, 129 reports. -/
def longReports : List Bytes := answerReports .cbor 5 (List.replicate Hid.maxMessageSize 3)

/-- A CBOR request is handed to a device, and the first packet of a PING comes on its channel. At the
instant at which the device answers, the rest of the PING is late: the answer has filled the pipe
when the listener gives the PING up. The host takes what is there, both senders have waited for
room, and each gets its share of it, until the host takes what is there again. -/
def crowdedRun : List (Time × Event Unit) :=
  List.flatten [
    (answerReports .cbor 5 [4]).map (0, .put ·), [(0, .hear [])],
    [(0, .inside (.enumerated 0 (.ok (.ofList [()]))))],
    (pingReports.take 1).map (0, .put ·), [(0, .hear [])],
    [(50, .inside (.answered 0 (.ok (List.replicate Hid.maxMessageSize 3))))],
    List.replicate 64 (50, .handOver (.dispatch 0)), [(50, .inside .missed)],
    List.replicate 64 (50, .take),
    List.replicate 63 (50, .handOver (.dispatch 0)), [(50, .handOver .listener)],
    List.replicate 64 (50, .take),
    List.replicate 2 (50, .handOver (.dispatch 0)), List.replicate 2 (50, .take)]

set_option maxRecDepth 100000 in
/-- **An answer is torn** by an error on its channel: the host receives 127 reports of the answer,
the error, and then the last 2 reports of the answer. -/
theorem torn_when_error_is_between : ∃ t received,
    Machine.run? Machine.free (fresh impatient) crowdedRun = some t ∧
    received = Machine.observe taken (fresh impatient) crowdedRun ∧
    longReports.length = 129 ∧
    received.filter (Dialogue.isOn 5) =
      longReports.take 127 ++ errorReports 5 .messageTimeout ++ longReports.drop 127 ∧
    ¬ Whole 5 (received.filter (Dialogue.isOn 5)) := by
  have hruns : (Machine.run? Machine.free (fresh impatient) crowdedRun).isSome = true := by
    decide +kernel
  have hreceived : (Machine.observe taken (fresh impatient) crowdedRun).filter (Dialogue.isOn 5) =
      longReports.take 127 ++ errorReports 5 .messageTimeout ++ longReports.drop 127 := by
    rfl
  have hlength : longReports.length = 129 := by decide +kernel
  obtain ⟨t, hrun⟩ := Option.isSome_iff_exists.1 hruns
  refine ⟨t, _, hrun, rfl, hlength, hreceived, ?_⟩
  have hmessage : IsMessage 5 (longReports.take 127 ++ longReports.drop 127) := by
    rw [List.take_append_drop]
    exact .answerReports ..
  have hbegun : longReports.take 127 ≠ [] :=
    List.ne_nil_of_length_pos (by rw [List.length_take, hlength]; decide)
  have hunfinished : longReports.drop 127 ≠ [] :=
    List.ne_nil_of_length_pos (by rw [List.length_drop, hlength]; decide)
  obtain ⟨_, _, hsplit, hbegins, -⟩ := (IsMessage.errorPacket 5 .messageTimeout).split
  cases hsplit
  rw [hreceived, errorReports]
  exact Torn.not_whole ⟨[], longReports.take 127, longReports.drop 127, _, longReports.drop 127,
    nofun, hmessage, hbegun, hunfinished, hbegins,
    by rw [List.flatten_nil, List.nil_append, List.append_assoc, List.singleton_append]⟩

end Attached

end Ctap.Gateway
