import Ctap.Proofs.Gateway.Answering
import Ctap.Proofs.Gateway.Dialogue

/-!
# The relay is transparent

A host that exchanges a message with a gateway gets what the device of the gateway answered, if
nobody else uses the pipe meanwhile and nobody is late. The exchange goes through phases: the message
is coming, it is relayed, and the answer is told. Whatever happens leads from a phase to the same or
to the next one, and from every phase there is a way on.

## Main definitions

* `verdict`: what the host makes of a response.
* `Dialogue.Coming`, `Dialogue.Relayed`, `Dialogue.Told`: the phases.
* `Dialogue.HasTime`: whether there is time for another attempt.

## Main results

* `Dialogue.Coming.step`, `Dialogue.Relayed.step`, `Dialogue.Told.step`: what follows in each phase.
* `Dialogue.Coming.leads`, `Dialogue.Relayed.leads`, `Dialogue.Told.leads`: where each phase leads.
* `Dialogue.relay_is_transparent`: a device gets the request, and the host gets its response.
-/

namespace Ctap.Gateway

open Hid (ChannelId Command Exchange Packet Reader)
open Link (Conversation)

variable {δ : Type}

/-! ### What the host makes of an answer -/

/-- What the host makes of the response of a device. -/
def verdict (body : Bytes) : Except Link.Error Bytes :=
  if body.length ≤ Hid.maxMessageSize then .ok body
  else .error (.deviceError Hid.ErrorCode.other.toByte)

/-- The reader of the answer to a message. -/
def reader (channel : ChannelId) (command : Command) : Reader :=
  .awaiting channel command.toByte false

/-- A message that is answered by one of the same kind. -/
def IsEchoed (command : Command) : Prop := command = .cbor ∨ command = .ping

variable {channel : ChannelId} {command : Command} {payload body : Bytes}

/-- Keepalives are passed over. -/
theorem feed_keepalives (channel : ChannelId) (hcommand : IsEchoed command) (n : Nat)
    (more : List Bytes) :
    (reader channel command).feed (List.replicate n (keepalive channel) ++ more) =
      (reader channel command).feed more := by
  have hother : Command.keepalive.toByte ≠ command.toByte &&& 0x7F := by
    rcases hcommand with rfl | rfl <;> decide
  have hpush : (reader channel command).push (keepalive channel) =
      .ok (reader channel command, none) :=
    Reader.push_keepalive (Packet.decode_encode_initial _ channel (by rfl) _ _) hother
  induction n with
  | zero => rfl
  | succ n ih => rw [List.replicate_succ, List.cons_append, Reader.feed_cons_none hpush, ih]

/-- **What the host makes of an answer.** -/
theorem feed_answer (hcommand : IsEchoed command) (n : Nat) : ((reader channel command).feed
    (List.replicate n (keepalive channel) ++ answerReports command channel body)).result? =
      some (verdict body) := by
  have hsize : Hid.initialHeaderSize < Hid.reportSize := by decide
  have htype : command.toByte &&& 0x80 = 0 := by cases command <;> rfl
  rw [feed_keepalives channel hcommand]
  by_cases hfits : body.length ≤ Hid.maxMessageSize
  · have hfeed := Reader.feed_message hsize channel htype
      (show false = true → command.toByte = Command.init.toByte by simp) hfits []
    rw [List.append_nil] at hfeed
    rw [answerReports_of_le hfits, verdict, if_pos hfits, reader, messageReports, hfeed]
    rfl
  · have hother : Command.error.toByte ≠ command.toByte &&& 0x7F := by
      rcases hcommand with rfl | rfl <;> decide
    have hpush := @Reader.push_error channel command.toByte false _ _ _
      (Packet.decode_encode_initial Hid.reportSize channel (by rfl) 1 [Hid.ErrorCode.other.toByte])
      hother
    rw [answerReports_of_lt (Nat.lt_of_not_le hfits), verdict, if_neg hfits, reader,
      Hid.errorPacket, Reader.feed_cons_error hpush]
    rfl

/-! ### What the gateway makes of a message -/

/-- Whether a listener is waiting for the packets of a message, and for nothing else. -/
inductive Listener.Awaits (channel : ChannelId) (command : Command) (payload : Bytes) :
    Listener → List Bytes → Prop where
  | whole : Awaits channel command payload .idle (messageReports command channel payload)
  | rest {reassembler : Hid.Reassembler} {deadline : Time} {pending : List Bytes}
    (feed : Reader.feed ⟨reassembler, false⟩ pending = .gave payload []) :
    Awaits channel command payload (.gathering ⟨channel, command.toByte, reassembler⟩ deadline)
      pending

namespace Listener.Awaits

variable {l : Listener} {report : Bytes} {rest : List Bytes}

theorem ne_nil (h : l.Awaits channel command payload rest) : rest ≠ [] := by
  cases h with
  | whole => exact List.cons_ne_nil _ _
  | rest feed =>
    rintro rfl
    cases feed

theorem ne_replying (h : l.Awaits channel command payload rest) {report : Bytes}
    {others : List Bytes} : l ≠ .replying report others := by
  rintro rfl
  cases h

private theorem proceed {reassembler : Hid.Reassembler} (config : Config) (draws : List ChannelId)
    (now : Time) (table : ChannelTable)
    (hfeed : Reader.feed ⟨reassembler, false⟩ (report :: rest) = .gave payload []) :
    rest = [] ∧ Listener.proceed config draws now table ⟨channel, command.toByte, reassembler⟩
        (reassembler.push report) =
      (respond config draws table channel command.toByte payload).map
        (fun r => (reply r.reports, r)) ∨
    ∃ next, Listener.proceed config draws now table ⟨channel, command.toByte, reassembler⟩
        (reassembler.push report) = some (next, .send table []) ∧
      next.Awaits channel command payload rest := by
  obtain ⟨raw, more, hcons, hpush⟩ := Reader.feed_eq_gave hfeed
  cases hcons
  simp only [Reader.push, Bool.false_and, Bool.false_eq_true, if_false, Reader.accept] at hpush
  rcases hpush with ⟨next, hpush, rfl⟩ | ⟨next, hpush, hfeed'⟩
  · split at hpush <;> cases hpush
    rename_i hpushed
    rw [hpushed]
    exact .inl ⟨rfl, rfl⟩
  · split at hpush <;> cases hpush
    rename_i hpushed
    rw [hpushed]
    exact .inr ⟨_, rfl, .rest hfeed'⟩

/-- **A message is answered with its last packet**, and nothing happens until then. -/
theorem hear (h : l.Awaits channel command payload (report :: rest))
    (hfits : payload.length ≤ Hid.maxMessageSize) (config : Config) (draws : List ChannelId)
    (now : Time) (table : ChannelTable) :
    rest = [] ∧ l.hear config draws now table report =
      (respond config draws table channel command.toByte payload).map
        (fun r => (reply r.reports, r)) ∨
    ∃ next, l.hear config draws now table report = some (next, .send table []) ∧
      next.Awaits channel command payload rest := by
  have hsize : Hid.initialHeaderSize < Hid.reportSize := by decide
  have htype : command.toByte &&& 0x80 = 0 := by cases command <;> rfl
  generalize hpending : report :: rest = pending at h
  cases h with
  | whole =>
    obtain ⟨raw, more, hpackets, ⟨length, data, hdecode⟩, -⟩ :=
      Reader.packets_eq_cons hsize channel htype hfits
    rw [messageReports, hpackets] at hpending
    cases hpending
    have hfeed := Reader.feed_message hsize channel htype
      (show false = true → command.toByte = Command.init.toByte by simp) hfits []
    rw [List.append_nil, hpackets] at hfeed
    rw [Listener.hear, begin, hdecode]
    exact proceed config draws now table hfeed
  | rest feed =>
    cases hpending
    exact proceed config draws now table feed

end Listener.Awaits

/-! ### The answer is told -/

/-- What the gateway has left to send: a reply, the answer to the request with the number `own`, or
nothing any more. -/
inductive System.Owes (own : DispatchId) (s : System δ) : List Bytes → Prop where
  | reply {report : Bytes} {rest : List Bytes} (listener : s.listener = .replying report rest)
    (none : s.dispatch? own = none) : Owes own s (report :: rest)
  | answer {d : Dispatch δ} {report : Bytes} {rest : List Bytes} (idle : s.listener = .idle)
    (found : s.dispatch? own = some d) (stage : d.stage = .answering report rest) :
    Owes own s (report :: rest)
  | nothing (idle : s.listener = .idle) (none : s.dispatch? own = none) : Owes own s []

namespace System.Owes

variable {own : DispatchId} {s t : System δ} {now : Time} {sender : Sender} {report : Bytes}
  {rest : List Bytes}

/-- What concerns neither the listener nor the request leaves what is owed. -/
theorem apart (h : s.Owes own rest) (hapart : s.Apart own t) : t.Owes own rest := by
  cases h with
  | reply listener none => exact .reply (hapart.listener.trans listener) (hapart.found.trans none)
  | answer idle found stage =>
    exact .answer (hapart.listener.trans idle) (hapart.found.trans found) stage
  | nothing idle none => exact .nothing (hapart.listener.trans idle) (hapart.found.trans none)

theorem quiet (h : s.Owes own rest) {d : Dispatch δ} (hd : s.dispatch? own = some d) :
    ∃ report others, d.stage = .answering report others := by
  cases h with
  | answer idle found stage =>
    cases found.symm.trans hd
    exact ⟨_, _, stage⟩
  | reply listener none | nothing idle none => cases none.symm.trans hd

/-- What the gateway owes once a request is no longer relayed. -/
theorem of_turn {d d' : Dispatch δ} {table : ChannelTable} {e : Event δ} (hs : Books s)
    (hidle : s.listener = .idle) (hd : s.dispatch? own = some d)
    (hturn : d.Turn s.config now s.table e d' table) (hstage : d'.stage = Dispatch.answer rest) :
    ({ s with table }.put d').Owes own rest := by
  have hfind := dispatch?_turn hs.alive hd hturn own
  rw [if_pos rfl, isOver, hstage] at hfind
  cases rest with
  | nil => exact .nothing hidle hfind
  | cons report rest => exact .answer hidle hfind hstage

theorem of_reply (hlistener : s.listener = .reply rest) (hnone : s.dispatch? own = none) :
    s.Owes own rest := by
  cases rest with
  | nil => exact .nothing hlistener hnone
  | cons report rest => exact .reply hlistener hnone

/-- **The first report that is owed is the one to be sent.** -/
theorem delivered (hs : Books s) (h : s.Owes own rest)
    (hsender : sender = .listener ∨ sender = .dispatch own)
    (hpending : s.pendingReport? sender = some report)
    (hstep : s.step? now (.delivered sender) = some t) :
    ∃ others, rest = report :: others ∧ t.Owes own others := by
  cases h with
  | @reply first others listener none =>
    rcases hsender with rfl | rfl
    · rw [pendingReport?, listener] at hpending
      rw [step?, listener] at hstep
      cases hpending
      cases hstep
      exact ⟨others, rfl, of_reply rfl none⟩
    · rw [pendingReport?, none] at hpending
      cases hpending
  | @answer d first others idle found stage =>
    rcases hsender with rfl | rfl
    · rw [pendingReport?, idle] at hpending
      cases hpending
    · simp only [pendingReport?, found, Option.bind_some, Dispatch.pendingReport?, stage,
        Option.some.injEq] at hpending
      subst hpending
      simp only [step?, change, found, Option.bind_some, Dispatch.delivered, stage,
        Option.map_some, Option.some.injEq] at hstep
      subst hstep
      have hturn : d.Turn s.config now s.table (.delivered (.dispatch own)) _ s.table := .told stage
      exact ⟨others, rfl, of_turn hs idle found hturn rfl⟩
  | nothing idle none =>
    rcases hsender with rfl | rfl
    · rw [pendingReport?, idle] at hpending
      cases hpending
    · rw [pendingReport?, none] at hpending
      cases hpending

/-- Whatever is owed can be sent. -/
theorem deliverable (h : s.Owes own (report :: rest)) (now : Time) : ∃ sender t,
    (sender = .listener ∨ sender = .dispatch own) ∧ s.pendingReport? sender = some report ∧
      s.step? now (.delivered sender) = some t := by
  cases h with
  | reply listener none =>
    refine ⟨.listener, { s with listener := .reply rest }, .inl rfl, ?_, ?_⟩
    · rw [pendingReport?, listener]
    · rw [step?, listener]
  | @answer d _ _ idle found stage =>
    refine ⟨.dispatch own, s.put { d with stage := Dispatch.answer rest }, .inr rfl, ?_, ?_⟩
    · simp [pendingReport?, found, Dispatch.pendingReport?, stage]
    · simp [step?, change, found, Dispatch.delivered, stage]

/-- What happens inside while an answer is told has nothing to do with it. -/
theorem inside (hs : Books s) (h : s.Owes own rest) {event : Event δ}
    (hinside : Dialogue.isInside event = true) (hmissed : event ≠ .missed)
    (hstep : s.step? now event = some t) : event.subject? ≠ some own ∧ s.Apart own t := by
  rcases inside_cases own hs hinside hmissed hstep with ⟨d, d', table, -, hd, hturn, -⟩ | hapart
  · obtain ⟨report, others, hstage⟩ := h.quiet hd
    cases hturn with
    | notified | unnotified | told | untold => cases hinside
    | handed stage | unlisted stage | failed stage | rested stage | ticked stage | answered stage
    | expired stage | aborted stage | gaveUp stage =>
      rw [hstage] at stage
      cases stage
  · exact hapart

end System.Owes

namespace Dialogue

variable {own : DispatchId} {request rest : List Bytes} {s t : Dialogue δ} {now : Time}
  {e : Event δ}

/-- The answer is being told, but for the rest. -/
structure Told (own : DispatchId) (channel : ChannelId) (command : Command) (body : Bytes)
    (rest : List Bytes) (s : Dialogue δ) : Prop where
  ready : s.Ready own
  heard : s.toGateway = []
  owes : s.gateway.Owes own rest
  /-- The host has got keepalives, and the answer up to the rest. -/
  reads : ∃ n said, said ++ rest = answerReports command channel body ∧
    s.host.Reads (reader channel command) (List.replicate n (keepalive channel) ++ said) s.toHost

/-- The rule lets the request with the number `own` and the listener send. -/
theorem sender_of_undisturbed {sender : Sender}
    (h : undisturbed own s (now, .handOver sender) = true) :
    sender = .listener ∨ sender = .dispatch own := by
  obtain ⟨-, hown⟩ := Bool.and_eq_true_iff.1 h
  cases sender with
  | listener => exact .inl rfl
  | dispatch id => exact .inr (congrArg Sender.dispatch (eq_of_beq hown))

theorem not_intrude_of_undisturbed {report : Bytes} :
    ¬ undisturbed own s (now, .intrude report) = true := by
  intro h
  cases (Bool.and_eq_true_iff.1 h).2

theorem ne_of_undisturbed {event : Gateway.Event δ}
    (h : undisturbed own s (now, .inside event) = true) : event ≠ .missed ∧ event ≠ .expired own := by
  obtain ⟨-, hlate⟩ := Bool.and_eq_true_iff.1 (punctual_of_undisturbed h)
  constructor
  · rintro rfl
    cases hlate
  · rintro rfl
    simp at hlate

/-- What is sent is neither an answer of a device nor an attempt. -/
theorem not_recorded_handOver {sender : Sender} {x : Time × Happening}
    (hx : x ∈ s.record (now, .handOver sender)) :
    (∀ body, x.2 ≠ .answered own body) ∧ ∀ request, x.2 ≠ .tried own request := by
  obtain ⟨event, hevent, hx⟩ := mem_record hx
  cases hevent
  obtain ⟨report, -, hx⟩ := List.mem_map.1 hx
  rw [← hx]
  exact ⟨by simp, by simp⟩

namespace Told

/-- **While the answer is told**, it goes on being told report by report, and no device is asked
again. -/
theorem step (h : Told own channel command body rest s)
    (hpermits : undisturbed own s (now, e) = true) (hstep : s.step? now e = some t) :
    (∀ x ∈ s.record (now, e), (∀ body, x.2 ≠ .answered own body) ∧
      ∀ request, x.2 ≠ .tried own request) ∧
    ∃ others, Told own channel command body others t ∧
      match e with
      | .handOver _ => ∃ report, rest = report :: others
      | _ => others = rest := by
  have hready := h.ready.step (punctual_of_undisturbed hpermits) hstep
  obtain ⟨n, said, hwhole, hreads⟩ := h.reads
  obtain ⟨-, hturn⟩ := step?_eq_some.1 hstep
  cases hturn with
  | write move =>
    rcases hreads.move with hmove | ⟨result, hended⟩
    · cases hmove.symm.trans move
    · rw [hended] at move
      cases move
  | take move first =>
    rw [first] at hreads
    exact ⟨List.forall_mem_nil _, rest, ⟨hready, h.heard, h.owes, n, said, hwhole, hreads.take move⟩, rfl⟩
  | hear first => cases h.heard.symm.trans first
  | @handOver sender report gateway pending there room gstep =>
    obtain ⟨others, rfl, howes⟩ :=
      h.owes.delivered h.ready.books (sender_of_undisturbed hpermits) pending gstep
    refine ⟨fun x hx => not_recorded_handOver hx, others,
      ⟨hready, h.heard, howes, n, said ++ [report], by simpa using hwhole, ?_⟩, report, rfl⟩
    rw [← List.append_assoc]
    exact hreads.more report
  | @inside event gateway inside gstep =>
    obtain ⟨hsubject, hapart⟩ :=
      h.owes.inside h.ready.books inside (ne_of_undisturbed hpermits).1 gstep
    refine ⟨fun x hx => ?_, rest,
      ⟨hready, h.heard, h.owes.apart hapart, n, said, hwhole, hreads⟩, rfl⟩
    obtain ⟨event', hevent, hx⟩ := mem_record hx
    cases hevent
    rw [← System.subject?_of_happening hx] at hsubject
    exact ⟨fun body hx => hsubject (by rw [hx]; rfl), fun request hx => hsubject (by rw [hx]; rfl)⟩
  | intrude => exact absurd hpermits not_intrude_of_undisturbed

theorem result (h : Told own channel command body rest s) (hcommand : IsEchoed command)
    {result : Except Link.Error Bytes} (hended : s.host = .ended result) : result = verdict body := by
  obtain ⟨n, said, hwhole, hreads⟩ := h.reads
  rw [hended] at hreads
  have hall := Reader.result?_append hreads.result rest
  rw [List.append_assoc, hwhole, feed_answer hcommand n] at hall
  exact (Option.some.inj hall).symm

/-- **The answer is told** in the end. -/
theorem leads (h : Told own channel command body rest s) (hcommand : IsEchoed command) :
    ∃ t, Machine.Leads (undisturbed own) s t ∧ t.host = .ended (verdict body) := by
  -- A report that is owed counts twice: it has to be sent and to be taken.
  refine Machine.Leads.countdown (P := fun n s => ∃ rest, Told own channel command body rest s ∧
    n = 2 * rest.length + s.toHost.length) (fun n s hs => ?_) ⟨rest, h, rfl⟩
  obtain ⟨rest, h, rfl⟩ := hs
  obtain ⟨k, said, hwhole, hreads⟩ := h.reads
  rcases hreads.move with hmove | ⟨result, hended⟩
  · right
    cases hqueue : s.toHost with
    | cons report queue =>
      -- The host takes what is there.
      have hpermits : undisturbed own s (s.now, .take) = true := by
        simp [undisturbed, punctual, h.ready.time]
      have hstep := step?_now (.take hmove hqueue)
      obtain ⟨-, others, hothers, rfl⟩ := h.step hpermits hstep
      exact ⟨_, _, _, hpermits, hstep, Nat.lt_succ_self _, others, hothers, rfl⟩
    | nil =>
      -- The host has not got the whole answer, so there is a report that is owed.
      cases rest with
      | nil =>
        rw [List.append_nil] at hwhole
        rw [hqueue, hwhole] at hreads
        cases (hreads.waits hmove).symm.trans (feed_answer hcommand k)
      | cons report others =>
        obtain ⟨sender, gateway, hsender, hpending, hdelivered⟩ := h.owes.deliverable s.now
        have hpermits : undisturbed own s (s.now, .handOver sender) = true := by
          rcases hsender with rfl | rfl <;> simp [undisturbed, punctual, h.ready.time]
        have hroom : s.toHost.length < pipeDepth := by
          rw [hqueue]
          decide
        have hstep := step?_now (.handOver hpending h.ready.host hroom hdelivered)
        obtain ⟨-, others', hothers, report', hrest⟩ := h.step hpermits hstep
        cases hrest
        refine ⟨_, _, _, hpermits, hstep, ?_, others, hothers, rfl⟩
        change 2 * others.length + (s.toHost ++ [report]).length < _
        simp [hqueue]
        omega
  · exact .inl (hended.trans (congrArg _ (h.result hcommand hended)))

end Told

end Dialogue

/-! ### The request is relayed -/

/-- How many steps an attempt is away from a device that works on the request. -/
def Relay.distance : Relay δ → Nat
  | exchanging _ => 0
  | polling => 1
  | resting _ => 2

/-- The same for a request; its keepalive has to be sent and to be taken. -/
def Stage.distance : Stage δ → Nat
  | relaying relay => relay.distance
  | notifying relay _ _ => relay.distance + 2
  | _ => 0

namespace Dialogue

variable {own : DispatchId} {rest : List Bytes} {s t : Dialogue δ} {now : Time} {e : Event δ}

/-- Whether the next attempt begins before the time for the request is up. -/
def HasTime (own : DispatchId) (s : Dialogue δ) : Prop :=
  ∀ d wake, s.gateway.dispatch? own = some d → d.stage.relay? = some (.resting wake) →
    wake ≤ d.deadline

/-- The request is being relayed, and the host has got keepalives only. -/
structure Relayed (own : DispatchId) (channel : ChannelId) (request : Bytes) (d : Dispatch δ)
    (relay : Relay δ) (s : Dialogue δ) : Prop where
  ready : s.Ready own
  idle : s.gateway.listener = .idle
  heard : s.toGateway = []
  found : s.gateway.dispatch? own = some d
  channel_eq : d.channel = channel
  asks : d.request = request
  wanted : d.signal = none
  stage : d.stage = .relaying relay ∨ d.stage = .notifying relay (keepalive channel) []
  reads : ∃ n, s.host.Reads (reader channel .cbor) (List.replicate n (keepalive channel)) s.toHost

/-- A device answers only when it does. -/
theorem answered_of_mem_record {x : Time} (hx : (x, .answered own body) ∈ s.record (now, e)) :
    e = .inside (.answered own (.ok body)) := by
  obtain ⟨event, hevent, hmem⟩ := mem_record hx
  cases e with
  | write | take | intrude => cases hevent
  | hear draws =>
    obtain ⟨report, -, rfl⟩ := Option.map_eq_some_iff.1 hevent
    rcases List.mem_append.1 hmem with hmem | hmem <;>
      obtain ⟨_, -, hother⟩ := List.mem_map.1 hmem <;> cases hother
  | handOver sender =>
    cases hevent
    obtain ⟨_, -, hother⟩ := List.mem_map.1 hmem
    cases hother
  | inside event =>
    cases hevent
    have hsubject := System.subject?_of_happening hmem
    cases event with
    | answered id result =>
      rcases result with _ | body
      · cases hmem
      · cases List.mem_singleton.1 hmem
        rfl
    | enumerated id listed =>
      rcases listed with _ | devices
      · cases hmem
      · simp only [System.happenings] at hmem
        split_ifs at hmem
        · obtain ⟨_, -, hother⟩ := List.mem_map.1 hmem
          cases hother
        · cases hmem
    | expired id => cases List.mem_singleton.1 hmem
    | delivered sender | undelivered sender =>
      obtain ⟨_, -, hother⟩ := List.mem_map.1 hmem
      cases hother
    | heard | missed | failed | shutdown => cases hsubject
    | rested | aborted | ticked | deviceCancelled => cases hmem

theorem tried_of_mem_record {x : Time} {request : Bytes} (hstep : s.step? now e = some t)
    (hx : (x, .tried own request) ∈ s.record (now, e)) :
    ∃ d, s.gateway.dispatch? own = some d ∧ d.request = request := by
  rcases gateway_step hstep with ⟨event, -, -, hrecord⟩ | ⟨-, hrecord⟩
  · exact System.found_of_tried (hrecord ▸ hx)
  · rw [hrecord] at hx
    cases hx

namespace Relayed

variable {request : Bytes} {d d' : Dispatch δ} {relay relay' : Relay δ}

theorem move (h : Relayed own channel request d relay s) :
    Conversation.move s.host = .receive := by
  obtain ⟨n, hreads⟩ := h.reads
  have hnone := feed_keepalives channel (.inl rfl : IsEchoed .cbor) n []
  rw [List.append_nil] at hnone
  exact hreads.receive (by rw [hnone]; rfl)

private theorem stay (h : Relayed own channel request d relay s) (hready : t.Ready own)
    {event : Gateway.Event δ} {table : ChannelTable}
    (hturn : d.Turn s.gateway.config now s.gateway.table event d' table)
    (hgateway : t.gateway = { s.gateway with table }.put d') (hheard : t.toGateway = [])
    (hstage : d'.stage = .relaying relay' ∨ d'.stage = .notifying relay' (keepalive channel) [])
    (hreads : ∃ n, t.host.Reads (reader channel .cbor) (List.replicate n (keepalive channel))
      t.toHost) : Relayed own channel request d' relay' t := by
  obtain ⟨-, hchannel, hrequest, -, hsignal⟩ := hturn.frame
  have halive : System.isOver d' = false := by
    rcases hstage with hstage | hstage <;> rw [System.isOver, hstage]
  refine ⟨hready, hgateway ▸ h.idle, hheard, ?_, hchannel.trans h.channel_eq, hrequest.trans h.asks,
    hsignal.trans h.wanted, hstage, hreads⟩
  rw [hgateway, System.dispatch?_turn h.ready.books.alive h.found hturn, if_pos rfl, halive]
  rfl

/-- **While the request is relayed**, a device is handed nothing else, and it goes on being relayed
until a device answers. -/
theorem step (h : Relayed own channel request d relay s)
    (hpermits : undisturbed own s (now, e) = true) (hstep : s.step? now e = some t) :
    (∃ d' relay', Relayed own channel request d' relay' t ∧
      ∀ body, e ≠ .inside (.answered own (.ok body))) ∨
    ∃ body, e = .inside (.answered own (.ok body)) ∧
      Told own channel .cbor body (answerReports .cbor channel body) t := by
  have hready := h.ready.step (punctual_of_undisturbed hpermits) hstep
  obtain ⟨n, hreads⟩ := h.reads
  obtain ⟨-, hturn⟩ := step?_eq_some.1 hstep
  cases hturn with
  | write move => cases h.move.symm.trans move
  | take move first =>
    rw [first] at hreads
    exact .inl ⟨d, relay, ⟨hready, h.idle, h.heard, h.found, h.channel_eq, h.asks, h.wanted, h.stage, n,
      hreads.take move⟩, by simp⟩
  | hear first => cases h.heard.symm.trans first
  | @handOver sender report gateway pending there room gstep =>
    left
    -- The listener is idle, so it is the request that sends, and what it sends is a keepalive.
    rcases sender_of_undisturbed hpermits with rfl | rfl
    · rw [System.pendingReport?, h.idle] at pending
      cases pending
    · rcases System.step_cases gstep with ⟨id, d₀, d', table, hsubject, hd, hturn, rfl⟩ | ⟨hnone, -⟩
      · cases hsubject
        cases h.found.symm.trans hd
        have hstage := h.stage
        have hkept := hturn
        cases hturn with
        | @notified _ relay₀ first rest stage =>
          rw [stage] at hstage
          simp only [reduceCtorEq, Stage.notifying.injEq, false_or] at hstage
          obtain ⟨rfl, rfl, rfl⟩ := hstage
          have hreport : report = keepalive channel := by
            simpa [System.pendingReport?, h.found, Dispatch.pendingReport?, stage] using pending.symm
          subst hreport
          refine ⟨_, relay₀, h.stay hready hkept rfl h.heard (.inl rfl) ⟨n + 1, ?_⟩, by simp⟩
          rw [List.replicate_succ']
          exact hreads.more _
        | told stage =>
          rw [stage] at hstage
          simp at hstage
      · cases hnone
  | @inside event gateway inside gstep =>
    obtain ⟨hmissed, hexpired⟩ := ne_of_undisturbed hpermits
    rcases System.inside_cases own h.ready.books inside hmissed gstep with
      ⟨d₀, d', table, hsubject, hd, hturn, rfl⟩ | ⟨hother, hapart⟩
    · cases h.found.symm.trans hd
      have hkept := hturn
      have hstopped {stage : Stage δ} (hstage : d.stage = stage) (hnone : stage.relay? = none) :
          False := by
        rcases h.stage with hother | hother <;> rw [← hstage, hother] at hnone <;> cases hnone
      cases hturn with
      | handed stage first | unlisted stage none | failed stage | rested stage due =>
        exact .inl ⟨_, _, h.stay hready hkept rfl h.heard (.inl rfl) ⟨n, hreads⟩, by simp⟩
      | ticked stage due =>
        exact .inl ⟨_, _, h.stay hready hkept rfl h.heard (.inr (by rw [h.channel_eq])) ⟨n, hreads⟩, by simp⟩
      | @answered id body device stage =>
        cases hsubject
        refine .inr ⟨body, rfl, hready, h.heard,
          .of_turn h.ready.books h.idle h.found hkept (by rw [h.channel_eq, Outcome.reports]), n, [], rfl, ?_⟩
        rw [List.append_nil]
        exact hreads
      | expired stage due =>
        cases hsubject
        exact absurd rfl hexpired
      | aborted stage signal => cases h.wanted.symm.trans signal
      | gaveUp stage => exact (hstopped stage rfl).elim
      | notified | unnotified | told | untold => cases inside
    · refine .inl ⟨d, relay, ⟨hready, hapart.listener.trans h.idle, h.heard,
        hapart.found.trans h.found, h.channel_eq, h.asks, h.wanted, h.stage, n, hreads⟩, ?_⟩
      rintro body hevent
      cases hevent
      exact hother rfl
  | intrude => exact absurd hpermits not_intrude_of_undisturbed

theorem relay?_eq (h : Relayed own channel request d relay s) : d.stage.relay? = some relay := by
  rcases h.stage with hstage | hstage <;> rw [hstage] <;> rfl

theorem now_le (h : Relayed own channel request d relay s) : s.now ≤ d.deadline :=
  (System.inTime_iff.1 h.ready.time).2 d h.found relay h.relay?_eq

theorem inTime (h : Relayed own channel request d relay s) (hnow : now ≤ d.deadline) :
    s.gateway.inTime own now = true := by
  refine System.inTime_iff.2 ⟨fun message deadline hgathering => ?_, fun d' hd' relay' _ => ?_⟩
  · cases h.idle.symm.trans hgathering
  · cases h.found.symm.trans hd'
    exact hnow

private theorem advance (h : Relayed own channel request d relay s) (hnow : s.now ≤ now)
    (htime : now ≤ d.deadline) {event : Gateway.Event δ} (hinside : isInside event = true)
    (hsubject : event.subject? = some own)
    (hpermits : undisturbed own s (now, .inside event) = s.gateway.inTime own now)
    (hafter : d.after? s.gateway.config now s.gateway.table event = some (d', s.gateway.table))
    (hstage : d'.stage = .relaying relay') :
    ∃ e t, undisturbed own s e = true ∧ Machine.next? s e = some t ∧
      Relayed own channel request d' relay' t ∧ t.toHost = s.toHost := by
  rw [h.inTime htime] at hpermits
  have hstep := step?_eq_some.2 ⟨hnow, .inside hinside (System.step?_of_after? hsubject h.found hafter)⟩
  have hready := h.ready.step (punctual_of_undisturbed hpermits) hstep
  exact ⟨_, _, hpermits, hstep, h.stay hready (Dispatch.turn_of_after? hafter) rfl h.heard
    (.inl hstage) h.reads, rfl⟩

/-- **A device gets to work on the request** if there is time for another attempt. -/
private theorem leads_exchanging (h : Relayed own channel request d relay s)
    (htime : s.HasTime own) (device : δ) : ∃ t, Machine.Leads (undisturbed own) s t ∧
      ∃ d device, Relayed own channel request d (.exchanging device) t ∧
        d.stage = .relaying (.exchanging device) := by
  refine Machine.Leads.countdown (P := fun n s => ∃ d relay, Relayed own channel request d relay s ∧
    (∀ wake, relay = .resting wake → wake ≤ d.deadline) ∧
      n = d.stage.distance + s.toHost.length) (fun n s hs => ?_)
    ⟨d, relay, h, fun wake hwake => htime d wake h.found (hwake ▸ h.relay?_eq), rfl⟩
  obtain ⟨d, relay, h, htime, rfl⟩ := hs
  rcases h.stage with hstage | hstage
  · cases relay with
    | exchanging device => exact .inl ⟨d, device, h, hstage⟩
    | polling =>
      have hafter : d.after? s.gateway.config s.now s.gateway.table
          (.enumerated own (.ok (.ofList [device]))) =
            some ({ d with stage := .relaying (.exchanging device) }, s.gateway.table) := by
        rw [Dispatch.after?, Dispatch.enumerated, hstage]
        rfl
      obtain ⟨e, t, hpermits, hstep, ht, hsame⟩ := h.advance (Nat.le_refl _) h.now_le rfl rfl
        (by simp [undisturbed, punctual]) hafter rfl
      refine .inr ⟨e, t, _, hpermits, hstep, ?_, _, _, ht, by simp, rfl⟩
      rw [hstage, hsame]
      simp [Stage.distance, Relay.distance]
    | resting wake =>
      -- The gateway rests until the next attempt is due, unless it is due already.
      have hafter : d.after? s.gateway.config (max s.now wake) s.gateway.table (.rested own) =
          some ({ d with stage := .relaying .polling }, s.gateway.table) := by
        rw [Dispatch.after?, Dispatch.rested, hstage]
        simp
      obtain ⟨e, t, hpermits, hstep, ht, hsame⟩ := h.advance (Nat.le_max_left ..)
        (Nat.max_le.2 ⟨h.now_le, htime wake rfl⟩) rfl rfl (by simp [undisturbed, punctual]) hafter rfl
      refine .inr ⟨e, t, _, hpermits, hstep, ?_, _, _, ht, by simp, rfl⟩
      rw [hstage, hsame]
      simp [Stage.distance, Relay.distance]
  · right
    cases hqueue : s.toHost with
    | cons report queue =>
      -- The host makes room for the keepalive.
      have hpermits : undisturbed own s (s.now, .take) = true := by
        simp [undisturbed, punctual, h.ready.time]
      have hstep := step?_now (.take h.move hqueue)
      have hready := h.ready.step (punctual_of_undisturbed hpermits) hstep
      obtain ⟨n, hreads⟩ := h.reads
      rw [hqueue] at hreads
      exact ⟨_, _, _, hpermits, hstep, Nat.lt_succ_self _, d, relay, ⟨hready, h.idle, h.heard,
        h.found, h.channel_eq, h.asks, h.wanted, h.stage, n, hreads.take h.move⟩, htime, rfl⟩
    | nil =>
      have hafter : d.after? s.gateway.config s.now s.gateway.table (.delivered (.dispatch own)) =
          some ({ d with stage := .relaying relay }, s.gateway.table) := by
        rw [Dispatch.after?, Dispatch.delivered, hstage]
        rfl
      have hpermits : undisturbed own s (s.now, .handOver (.dispatch own)) = true := by
        simp [undisturbed, punctual, h.ready.time]
      have hpending : s.gateway.pendingReport? (.dispatch own) = some (keepalive channel) := by
        simp [System.pendingReport?, h.found, Dispatch.pendingReport?, hstage]
      have hroom : s.toHost.length < pipeDepth := by
        rw [hqueue]
        decide
      have hstep := step?_now (.handOver hpending h.ready.host hroom
        (System.step?_of_after? rfl h.found hafter))
      have hready := h.ready.step (punctual_of_undisturbed hpermits) hstep
      obtain ⟨n, hreads⟩ := h.reads
      have hmore := hreads.more (keepalive channel)
      rw [← List.replicate_succ'] at hmore
      refine ⟨_, _, _, hpermits, hstep, ?_, _, relay, h.stay hready (Dispatch.turn_of_after? hafter)
        rfl h.heard (.inl rfl) ⟨n + 1, hmore⟩, htime, rfl⟩
      change Relay.distance relay + (s.toHost ++ [keepalive channel]).length < _
      rw [hstage, hqueue]
      simp [Stage.distance]

/-- **A device can answer the request** if there is time for another attempt, and then its response
is told. -/
theorem leads (h : Relayed own channel request d relay s) (htime : s.HasTime own) (device : δ)
    (body : Bytes) : ∃ t, Machine.Leads (undisturbed own) s t ∧ t.host = .ended (verdict body) := by
  obtain ⟨u, hleads, d, device, h, hstage⟩ := h.leads_exchanging htime device
  have hafter : d.after? u.gateway.config u.now u.gateway.table (.answered own (.ok body)) =
      some (d.stop u.gateway.table (.response body) .polling) := by
    rw [Dispatch.after?, Dispatch.answered, hstage]
  have hpermits : undisturbed own u (u.now, .inside (.answered own (.ok body))) = true := by
    simp [undisturbed, punctual, h.ready.time]
  have hstep := step?_now (.inside rfl (System.step?_of_after? rfl h.found hafter))
  rcases h.step hpermits hstep with ⟨d', relay', -, hnever⟩ | ⟨body', hsame, htold⟩
  · exact absurd rfl (hnever body)
  · cases hsame
    obtain ⟨t, hmore, hended⟩ := htold.leads (.inl rfl)
    exact ⟨t, hleads.trans (hmore.head hpermits hstep), hended⟩

end Relayed

/-! ### The message is coming -/

/-- The host is sending its message, and nothing has been sent to it. -/
structure Coming (own : DispatchId) (channel : ChannelId) (command : Command) (payload : Bytes)
    (s : Dialogue δ) : Prop where
  ready : s.Ready own
  /-- A request would get the number `own`. -/
  next : s.gateway.table.nextDispatch = own
  free : command = .cbor → s.gateway.table.dispatchOn? channel = none
  silent : s.toHost = []
  /-- The host has packets to send, and then it will read. -/
  host : s.host = .start (reader channel command) (.ok s.host.unsent)
  awaits : s.gateway.listener.Awaits channel command payload (s.toGateway ++ s.host.unsent)

namespace Coming

private theorem respond_eq (config : Config) (draws : List ChannelId) (table : ChannelTable)
    (hzero : channel ≠ 0) (hbroadcast : channel ≠ Hid.broadcast) (payload : Bytes) :
    respond config draws table channel Command.cbor.toByte payload =
        some (accept table channel payload) ∧
      respond config draws table channel Command.ping.toByte payload =
        some (.send table (answerReports .ping channel payload)) := by
  simp only [respond, if_neg hzero, if_neg hbroadcast]
  exact ⟨rfl, rfl⟩

/-- **While the message is coming**, it goes on coming until it is complete. Then a request is
relayed, and a PING is answered. -/
theorem step (h : Coming own channel command payload s) (hcommand : IsEchoed command)
    (hzero : channel ≠ 0) (hbroadcast : channel ≠ Hid.broadcast)
    (hfits : payload.length ≤ Hid.maxMessageSize)
    (hpermits : undisturbed own s (now, e) = true) (hstep : s.step? now e = some t) :
    Coming own channel command payload t ∨
      command = .cbor ∧ (∃ d, Relayed own channel payload d .polling t) ∨
      command = .ping ∧ ∃ rest, Told own channel .ping payload rest t := by
  have hready := h.ready.step (punctual_of_undisturbed hpermits) hstep
  have hnone : s.gateway.dispatch? own = none := h.next ▸ h.ready.books.dispatch?_nextDispatch
  obtain ⟨-, hturn⟩ := step?_eq_some.1 hstep
  cases hturn with
  | write move =>
    obtain ⟨hunsent, hhost⟩ := Exchange.unsent_of_move h.host move
    have hawaits := h.awaits
    rw [hunsent, List.append_cons] at hawaits
    exact .inl ⟨hready, h.next, h.free, h.silent, hhost, hawaits⟩
  | take move first => cases h.silent.symm.trans first
  | @hear draws report others gateway first gstep =>
    have hawaits := h.awaits
    rw [first, List.cons_append] at hawaits
    obtain ⟨⟨l, r⟩, hhear, rfl⟩ := Option.map_eq_some_iff.1 gstep
    rcases hawaits.hear hfits s.gateway.config draws now s.gateway.table with
      ⟨hlast, heq⟩ | ⟨next, heq, hnext⟩
    · obtain ⟨rfl, hunsent⟩ := List.append_eq_nil_iff.1 hlast
      have hhost : s.host.Reads (reader channel command) [] s.toHost := by
        rw [h.host, hunsent, h.silent]
        exact .start _
      rw [heq] at hhear
      right
      rcases hcommand with rfl | rfl
      · obtain ⟨table, hstart⟩ : ∃ table, s.gateway.table.start channel = some (own, table) :=
          ⟨_, ChannelTable.start_eq_some.2 ⟨h.free rfl, by rw [h.next]⟩⟩
        rw [(respond_eq _ _ _ hzero hbroadcast _).1, Option.map_some, accept, hstart] at hhear
        cases hhear
        have hfound : (s.gateway.react now .idle
            ⟨table, [], none, some ⟨own, channel, payload⟩⟩).dispatch? own = _ :=
          h.ready.books.dispatch?_accept .idle hstart []
        exact .inl ⟨rfl, _, hready, rfl, rfl, hfound, rfl, rfl, rfl, .inl rfl, 0, hhost⟩
      · rw [(respond_eq _ _ _ hzero hbroadcast _).2, Option.map_some] at hhear
        cases hhear
        refine .inr ⟨rfl, _, hready, rfl, .of_reply rfl ?_, 0, [], rfl, hhost⟩
        rw [System.react_send]
        exact hnone
    · rw [heq] at hhear
      cases hhear
      rw [System.react_send] at hready ⊢
      exact .inl ⟨hready, h.next, h.free, h.silent, h.host, hnext⟩
  | @handOver sender report gateway pending there room gstep =>
    rcases sender_of_undisturbed hpermits with rfl | rfl
    · rw [System.pendingReport?] at pending
      split at pending
      · rename_i hlistener
        exact absurd hlistener h.awaits.ne_replying
      · cases pending
    · rw [System.pendingReport?, hnone] at pending
      cases pending
  | @inside event gateway inside gstep =>
    rcases System.inside_cases own h.ready.books inside (ne_of_undisturbed hpermits).1 gstep with
      ⟨d, d', table, -, hd, -⟩ | ⟨-, hapart⟩
    · cases hnone.symm.trans hd
    · refine .inl ⟨hready, hapart.next.trans h.next, fun hcbor => hapart.free _ (h.free hcbor),
        h.silent, h.host, ?_⟩
      change gateway.listener.Awaits channel command payload (s.toGateway ++ s.host.unsent)
      rw [hapart.listener]
      exact h.awaits
  | intrude => exact absurd hpermits not_intrude_of_undisturbed

private theorem hears (h : Coming own channel command payload s) (hcommand : IsEchoed command)
    (hzero : channel ≠ 0) (hbroadcast : channel ≠ Hid.broadcast)
    (hfits : payload.length ≤ Hid.maxMessageSize) {report : Bytes} {others : List Bytes}
    (hfirst : s.toGateway = report :: others) :
    ∃ gateway, s.gateway.step? s.now (.heard report []) = some gateway := by
  have hawaits := h.awaits
  rw [hfirst, List.cons_append] at hawaits
  obtain ⟨hcbor, hping⟩ :=
    respond_eq s.gateway.config [] s.gateway.table hzero hbroadcast payload
  rcases hawaits.hear hfits s.gateway.config [] s.now s.gateway.table with
    ⟨-, heq⟩ | ⟨next, heq, -⟩
  · rcases hcommand with rfl | rfl
    · rw [hcbor] at heq
      exact ⟨_, by rw [System.step?, heq]; rfl⟩
    · rw [hping] at heq
      exact ⟨_, by rw [System.step?, heq]; rfl⟩
  · exact ⟨_, by rw [System.step?, heq]; rfl⟩

/-- **The message arrives**: then a request is relayed, and a PING is answered. -/
theorem leads (h : Coming own channel command payload s) (hcommand : IsEchoed command)
    (hzero : channel ≠ 0) (hbroadcast : channel ≠ Hid.broadcast)
    (hfits : payload.length ≤ Hid.maxMessageSize) :
    ∃ t, Machine.Leads (undisturbed own) s t ∧
      (command = .cbor ∧ (∃ d, Relayed own channel payload d .polling t) ∨
        command = .ping ∧ ∃ rest, Told own channel .ping payload rest t) := by
  -- A packet counts twice: it has to be sent and to be taken.
  refine Machine.Leads.countdown (P := fun n s =>
    (Coming own channel command payload s ∧ n = 2 * s.host.unsent.length + s.toGateway.length + 1) ∨
    (command = .cbor ∧ (∃ d, Relayed own channel payload d .polling s) ∨
      command = .ping ∧ ∃ rest, Told own channel .ping payload rest s) ∧ n = 0)
    (fun n s hs => ?_) (.inl ⟨h, rfl⟩)
  rcases hs with ⟨h, rfl⟩ | ⟨hgoal, rfl⟩
  · right
    have hpermits : undisturbed own s (s.now, .write) = true ∧
        undisturbed own s (s.now, .hear []) = true := by
      simp [undisturbed, punctual, h.ready.time]
    cases hqueue : s.toGateway with
    | cons report others =>
      obtain ⟨gateway, gstep⟩ := h.hears hcommand hzero hbroadcast hfits hqueue
      have hstep := step?_now (.hear hqueue gstep)
      rcases h.step hcommand hzero hbroadcast hfits hpermits.2 hstep with ht | ht
      · exact ⟨_, _, _, hpermits.2, hstep, Nat.lt_succ_self _, .inl ⟨ht, rfl⟩⟩
      · exact ⟨_, _, _, hpermits.2, hstep, Nat.succ_pos _, .inr ⟨ht, rfl⟩⟩
    | nil =>
      -- Something is still to come, so the host has not sent everything.
      cases hunsent : s.host.unsent with
      | nil => exact absurd (by rw [hqueue, hunsent]; rfl) h.awaits.ne_nil
      | cons packet others =>
        have hmove : Conversation.move s.host = .send packet := by
          rw [h.host, hunsent]
          rfl
        have hroom : s.toGateway.length < pipeDepth := by
          rw [hqueue]
          decide
        have hstep := step?_now (.write hmove h.ready.gateway hroom)
        rcases h.step hcommand hzero hbroadcast hfits hpermits.1 hstep with ht | ht
        · refine ⟨_, _, _, hpermits.1, hstep, ?_, .inl ⟨ht, rfl⟩⟩
          change 2 * (s.host.sent (.ok ())).unsent.length + (s.toGateway ++ [packet]).length + 1 < _
          rw [← hunsent, (Exchange.unsent_of_move h.host hmove).1, hqueue]
          simp only [List.nil_append, List.length_cons, List.length_nil]
          omega
        · exact ⟨_, _, _, hpermits.1, hstep, Nat.succ_pos _, .inr ⟨ht, rfl⟩⟩
  · exact .inl hgoal

end Coming

/-! ### Every run -/

/-- Where an exchange stands, with what was recorded of it. -/
inductive Stands (own : DispatchId) (channel : ChannelId) (command : Command) (payload : Bytes)
    (s : Dialogue δ) (seen : List (Time × Happening)) : Prop where
  | coming (phase : Coming own channel command payload s)
    (unseen : ∀ x ∈ seen, x.2.subject? ≠ some own)
  | relayed {d : Dispatch δ} {relay : Relay δ} (cbor : command = .cbor)
    (phase : Relayed own channel payload d relay s)
    (tried : ∀ x request, (x, .tried own request) ∈ seen → request = payload)
    (unanswered : ∀ x body, (x, .answered own body) ∉ seen)
  | told {body : Bytes} {rest : List Bytes} (phase : Told own channel command body rest s)
    (tried : ∀ x request, (x, .tried own request) ∈ seen → request = payload)
    (answered : ∀ x other, (x, .answered own other) ∈ seen → other = body)
    (answer : command = .ping ∧ body = payload ∨
      command = .cbor ∧ ∃ x, (x, .answered own body) ∈ seen)

namespace Stands

variable {seen : List (Time × Happening)}

/-- An exchange begins with its message. -/
theorem start {config : Config} {events : List (Time × Gateway.Event δ)} {s : System δ}
    (hreached : Machine.run? Machine.free (System.fresh config) events = some s)
    (hidle : s.listener = .idle) (hfree : command = .cbor → s.table.dispatchOn? channel = none)
    (hfits : payload.length ≤ Hid.maxMessageSize) (now : Time) :
    Stands s.table.nextDispatch channel command payload
      (.start now channel command payload s) [] := by
  have hbooks := Books.run hreached
  have hnone := hbooks.dispatch?_nextDispatch
  have hpackets := @packetize_of_le command channel payload hfits
  have htime : s.inTime s.table.nextDispatch now = true := by
    rw [System.inTime, hidle, hnone]
    rfl
  refine .coming ⟨⟨hbooks, rfl, rfl, htime⟩, rfl, hfree, rfl, ?_, ?_⟩ (by simp)
  · simp only [Dialogue.start, Exchange.transact, hpackets, Exchange.unsent_start]
    rfl
  · simp only [Dialogue.start, Exchange.transact, hpackets, Exchange.unsent_start, hidle]
    exact .whole

/-- **Whatever happens, an exchange goes its way.** -/
theorem step (hs : Stands own channel command payload s seen) (hcommand : IsEchoed command)
    (hzero : channel ≠ 0) (hbroadcast : channel ≠ Hid.broadcast)
    (hfits : payload.length ≤ Hid.maxMessageSize)
    (hpermits : undisturbed own s (now, e) = true) (hstep : s.step? now e = some t) :
    Stands own channel command payload t (seen ++ s.record (now, e)) := by
  cases hs with
  | coming phase unseen =>
    have hunseen : ∀ x ∈ seen ++ s.record (now, e), x.2.subject? ≠ some own := by
      intro x hx
      rcases List.mem_append.1 hx with hx | hx
      · exact unseen x hx
      · exact not_recorded (phase.next ▸ phase.ready.books.dispatch?_nextDispatch) hstep x hx
    rcases phase.step hcommand hzero hbroadcast hfits hpermits hstep with
      hcoming | ⟨rfl, d, hrelayed⟩ | ⟨rfl, rest, htold⟩
    · exact .coming hcoming hunseen
    · exact .relayed rfl hrelayed (fun x request hx => absurd rfl (hunseen _ hx))
        fun x body hx => hunseen _ hx rfl
    · exact .told htold (fun x request hx => absurd rfl (hunseen _ hx))
        (fun x other hx => absurd rfl (hunseen _ hx)) (.inl ⟨rfl, rfl⟩)
  | @relayed d relay cbor phase tried unanswered =>
    subst cbor
    have htried : ∀ x request, (x, .tried own request) ∈ seen ++ s.record (now, e) →
        request = payload := by
      intro x request hx
      rcases List.mem_append.1 hx with hx | hx
      · exact tried x request hx
      · obtain ⟨d', hd', rfl⟩ := tried_of_mem_record hstep hx
        cases phase.found.symm.trans hd'
        exact phase.asks
    rcases phase.step hpermits hstep with ⟨d', relay', hrelayed, hnever⟩ | ⟨body, rfl, htold⟩
    · refine .relayed rfl hrelayed htried fun x body hx => ?_
      rcases List.mem_append.1 hx with hx | hx
      · exact unanswered x body hx
      · exact hnever body (answered_of_mem_record hx)
    · refine .told htold htried (fun x other hx => ?_) (.inr ⟨rfl, now, ?_⟩)
      · rcases List.mem_append.1 hx with hx | hx
        · exact absurd hx (unanswered x other)
        · cases answered_of_mem_record hx
          rfl
      · exact List.mem_append_right _ (List.mem_singleton_self _)
  | @told body rest phase tried answered answer =>
    obtain ⟨hrecord, others, htold, -⟩ := phase.step hpermits hstep
    refine .told htold (fun x request hx => ?_) (fun x other hx => ?_)
      (answer.imp id fun ⟨hcbor, x, hx⟩ => ⟨hcbor, x, List.mem_append_left _ hx⟩)
    · rcases List.mem_append.1 hx with hx | hx
      · exact tried x request hx
      · exact absurd rfl ((hrecord _ hx).2 request)
    · rcases List.mem_append.1 hx with hx | hx
      · exact answered x other hx
      · exact absurd rfl ((hrecord _ hx).1 other)

theorem run {start : Dialogue δ} {seen : List (Time × Event δ)}
    (hs : Stands own channel command payload start []) (hcommand : IsEchoed command)
    (hzero : channel ≠ 0) (hbroadcast : channel ≠ Hid.broadcast)
    (hfits : payload.length ≤ Hid.maxMessageSize)
    (hrun : Machine.run? (undisturbed own) start seen = some t) :
    Stands own channel command payload t (Machine.observe record start seen) :=
  Machine.run?_induction_observe
    (fun _ _ _ _ hs hpermits hstep =>
      hs.step hcommand hzero hbroadcast hfits hpermits hstep) hs hrun

/-- An exchange that has ended was told an answer. -/
theorem told_of_ended (hs : Stands own channel command payload s seen) (hcommand : IsEchoed command)
    {result : Except Link.Error Bytes} (hended : s.host = .ended result) :
    ∃ body, result = verdict body ∧ (∀ x other, (x, .answered own other) ∈ seen → other = body) ∧
      (command = .ping ∧ body = payload ∨
        command = .cbor ∧ ∃ x, (x, .answered own body) ∈ seen) := by
  cases hs with
  | coming phase unseen =>
    have hhost := phase.host
    rw [hended] at hhost
    cases hhost
  | relayed cbor phase tried unanswered =>
    have hmove := phase.move
    rw [hended] at hmove
    cases hmove
  | told phase tried answered answer => exact ⟨_, phase.result hcommand hended, answered, answer⟩

/-- A PING is answered in the end. -/
theorem leads_ping (hs : Stands own channel .ping payload s seen) (hzero : channel ≠ 0)
    (hbroadcast : channel ≠ Hid.broadcast) (hfits : payload.length ≤ Hid.maxMessageSize) :
    ∃ t, Machine.Leads (undisturbed own) s t ∧ t.host = .ended (verdict payload) := by
  cases hs with
  | coming phase unseen =>
    obtain ⟨u, hfirst, ⟨hcbor, -⟩ | ⟨-, rest, htold⟩⟩ :=
      phase.leads (.inr rfl) hzero hbroadcast hfits
    · cases hcbor
    · obtain ⟨t, hmore, hended⟩ := htold.leads (.inr rfl)
      exact ⟨t, hfirst.trans hmore, hended⟩
  | relayed cbor => cases cbor
  | told phase tried answered answer =>
    rcases answer with ⟨-, rfl⟩ | ⟨hcbor, -⟩
    · exact phase.leads (.inr rfl)
    · cases hcbor

/-- A request can be answered, and then is, as long as there is time for another attempt. -/
theorem leads_cbor (hs : Stands own channel .cbor payload s seen) (hzero : channel ≠ 0)
    (hbroadcast : channel ≠ Hid.broadcast) (hfits : payload.length ≤ Hid.maxMessageSize)
    (htime : s.HasTime own) (hnone : ∀ x body, (x, .answered own body) ∉ seen) (device : δ)
    (body : Bytes) : ∃ t, Machine.Leads (undisturbed own) s t ∧ t.host = .ended (verdict body) := by
  cases hs with
  | coming phase unseen =>
    obtain ⟨u, hfirst, ⟨-, d, hrelayed⟩ | ⟨hping, -⟩⟩ :=
      phase.leads (.inl rfl) hzero hbroadcast hfits
    · have htime : u.HasTime own := by
        intro d' wake hd' hwake
        cases hrelayed.found.symm.trans hd'
        cases hrelayed.relay?_eq.symm.trans hwake
      obtain ⟨t, hmore, hended⟩ := hrelayed.leads htime device body
      exact ⟨t, hfirst.trans hmore, hended⟩
    · cases hping
  | relayed cbor phase tried unanswered => exact phase.leads htime device body
  | told phase tried answered answer =>
    rcases answer with ⟨hping, -⟩ | ⟨-, x, hx⟩
    · cases hping
    · exact absurd hx (hnone x _)

end Stands

/-- **The relay is transparent.** A gateway that has served for a while, and is idle, exchanges a
message with a host on an ordinary channel without a request in flight, while nobody is late and
others leave the pipe alone. Every device that is handed a request is handed the payload. The
exchange ends with what the host makes of the response, and with nothing else; it does end once a
device has answered, and until then any response can come as long as there is time for another
attempt. A PING comes back. -/
theorem relay_is_transparent {config : Config} {events : List (Time × Gateway.Event δ)}
    {gateway : System δ}
    (hreached : Machine.run? Machine.free (System.fresh config) events = some gateway)
    (hidle : gateway.listener = .idle) (hown : gateway.table.nextDispatch = own)
    (hzero : channel ≠ 0) (hbroadcast : channel ≠ Hid.broadcast)
    (hfits : payload.length ≤ Hid.maxMessageSize) (start : Time) :
    (gateway.table.dispatchOn? channel = none → ∀ seen t,
      Machine.run? (undisturbed own) (.start start channel .cbor payload gateway) seen = some t →
      ∀ trace, trace =
        Machine.observe record (.start start channel .cbor payload gateway) seen →
      (∀ x request, (x, .tried own request) ∈ trace → request = payload) ∧
      (∀ result, t.host = .ended result → (∃ x body, (x, .answered own body) ∈ trace) ∧
        ∀ x body, (x, .answered own body) ∈ trace → result = verdict body) ∧
      (∀ x body, (x, .answered own body) ∈ trace →
        ∃ u, Machine.Leads (undisturbed own) t u ∧ u.host = .ended (verdict body)) ∧
      (t.HasTime own → (∀ x body, (x, .answered own body) ∉ trace) → ∀ (_ : δ) body,
        ∃ u, Machine.Leads (undisturbed own) t u ∧ u.host = .ended (verdict body))) ∧
    ∀ seen t,
      Machine.run? (undisturbed own) (.start start channel .ping payload gateway) seen = some t →
      (∀ result, t.host = .ended result → result = .ok payload) ∧
      ∃ u, Machine.Leads (undisturbed own) t u ∧ u.host = .ended (.ok payload) := by
  subst hown
  have hverdict : verdict payload = .ok payload := if_pos hfits
  refine ⟨fun hfree seen t hrun trace htrace => ?_, fun seen t hrun => ?_⟩
  · have hs := Stands.run (Stands.start hreached hidle (fun _ => hfree) hfits start) (.inl rfl)
      hzero hbroadcast hfits hrun
    rw [← htrace] at hs
    refine ⟨fun x request hx => ?_, fun result hended => ?_, fun x body hx => ?_,
      fun htime hnone device body => hs.leads_cbor hzero hbroadcast hfits htime hnone device body⟩
    · cases hs with
      | coming phase unseen => exact absurd rfl (unseen _ hx)
      | relayed cbor phase tried unanswered => exact tried x request hx
      | told phase tried answered answer => exact tried x request hx
    · obtain ⟨body, hresult, honly, ⟨hping, -⟩ | ⟨-, x, hx⟩⟩ := hs.told_of_ended (.inl rfl) hended
      · cases hping
      · exact ⟨⟨x, body, hx⟩, fun y other hy => honly y other hy ▸ hresult⟩
    · cases hs with
      | coming phase unseen => exact absurd rfl (unseen _ hx)
      | relayed cbor phase tried unanswered => exact absurd hx (unanswered x body)
      | told phase tried answered answer =>
        rw [answered x body hx]
        exact phase.leads (.inl rfl)
  · have hstart : Stands _ channel .ping payload (.start start channel .ping payload gateway) [] :=
      .start hreached hidle (fun hcbor => by cases hcbor) hfits start
    have hs := hstart.run (.inr rfl) hzero hbroadcast hfits hrun
    refine ⟨fun result hended => ?_, hverdict ▸ hs.leads_ping hzero hbroadcast hfits⟩
    obtain ⟨body, hresult, -, ⟨-, rfl⟩ | ⟨hcbor, -⟩⟩ := hs.told_of_ended (.inr rfl) hended
    · exact hresult.trans hverdict
    · cases hcbor

/-- A request is relayed. Listing the devices fails, then there are none, then the exchange fails;
a keepalive is sent meanwhile. The second exchange brings a response. -/
def relayedRun : List (Time × Event Unit) :=
  [(0, .write), (1, .hear []), (1, .inside (.enumerated 0 (.error (.link .timeout)))),
    (101, .inside (.rested 0)), (101, .inside (.enumerated 0 (.ok (.ofList [])))),
    (101, .inside (.ticked 0)), (101, .handOver (.dispatch 0)), (101, .take),
    (201, .inside (.rested 0)), (201, .inside (.enumerated 0 (.ok (.ofList [()])))),
    (250, .inside (.answered 0 (.error (.link .timeout)))), (350, .inside (.rested 0)),
    (350, .inside (.enumerated 0 (.ok (.ofList [()])))), (400, .inside (.answered 0 (.ok [0]))),
    (400, .handOver (.dispatch 0)), (400, .take)]

/-- The request of a host is relayed in spite of failures, and a PING comes back. -/
theorem relay_is_transparent_after_failures : ∃ t,
    Machine.run? (undisturbed 0) (.start 0 5 .cbor [4] (System.fresh .standard)) relayedRun =
      some t ∧ t.host = .ended (verdict [0]) ∧
    (∀ x request, (x, .tried 0 request) ∈
        Machine.observe record (.start 0 5 .cbor [4] (System.fresh .standard)) relayedRun →
      request = [4]) ∧
    ∃ u, Machine.Leads (undisturbed 0)
        (.start 0 5 .ping [4] (System.fresh .standard : System Unit)) u ∧
      u.host = .ended (.ok [4]) := by
  have hrun : Machine.run? (undisturbed 0) (.start 0 5 .cbor [4] (System.fresh .standard))
      relayedRun = some _ := rfl
  have hreached : Machine.run? Machine.free (System.fresh .standard : System Unit) [] = some _ :=
    rfl
  have hfits : ([4] : Bytes).length ≤ Hid.maxMessageSize := by decide
  obtain ⟨hrelayed, hping⟩ := relay_is_transparent hreached rfl rfl
    (by decide : (5 : ChannelId) ≠ 0) (by decide) hfits 0
  have hall := hrelayed rfl relayedRun _ hrun _ rfl
  exact ⟨_, hrun, rfl, hall.1, (hping [] _ rfl).2⟩

/-- A gateway that relays a request on channel 7. -/
def busyRun : List (Time × Gateway.Event Unit) :=
  [(0, .heard (Packet.encode Hid.reportSize (.initial 7 Command.cbor.toByte 1 [4])) [])]

/-- A request on channel 5 is relayed and answered; before its response is sent, a keepalive is sent
for the request on channel 7. -/
def overtakenRun : List (Time × Event Unit) :=
  [(0, .write), (0, .hear []), (0, .inside (.enumerated 1 (.ok (.ofList [()])))),
    (50, .inside (.answered 1 (.ok [0]))), (100, .inside (.ticked 0)),
    (100, .handOver (.dispatch 0)), (100, .take)]

/-- A PING of two packets on channel 5; another one on channel 7 comes between them. -/
def interruptedRun : List (Time × Event Unit) :=
  [(0, .write), (0, .intrude (Packet.encode Hid.reportSize (.initial 7 Command.ping.toByte 1 [4]))),
    (0, .write), (0, .hear []), (0, .hear []), (0, .handOver .listener), (0, .take)]

set_option maxRecDepth 4000 in
/-- It does not suffice that others leave the channel of the host alone. If they send on another
channel, a request that was answered may end with an error, and so may a PING. -/
theorem others_disturb_on_other_channels :
    (∃ gateway t, Machine.run? Machine.free (System.fresh .standard) busyRun = some gateway ∧
      gateway.listener = .idle ∧ gateway.table.nextDispatch = 1 ∧
      gateway.table.dispatchOn? 5 = none ∧
      Machine.run? (undisturbedOn 5 1) (.start 0 5 .cbor [4] gateway) overtakenRun = some t ∧
      (50, .answered 1 [0]) ∈
        Machine.observe record (.start 0 5 .cbor [4] gateway) overtakenRun ∧
      t.host = .ended (.error (.channelMismatch 5 7))) ∧
    ∃ t, Machine.run? (undisturbedOn 5 0)
        (.start 0 5 .ping (List.replicate 60 4) (System.fresh .standard)) interruptedRun = some t ∧
      t.host = .ended (.error (.deviceError Hid.ErrorCode.invalidCommand.toByte)) := by
  refine ⟨⟨_, _, rfl, rfl, rfl, rfl, rfl, ?_, rfl⟩, ?_⟩
  · decide
  · exact ⟨_, rfl, rfl⟩

end Dialogue

end Ctap.Gateway
