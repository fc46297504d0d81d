import Ctap.Proofs.Gateway.Dialogue
import Ctap.Proofs.Gateway.Replies
import Ctap.Proofs.Hid.Acceptance

/-!
# What INIT meets

A host sends INIT on a channel and reads the answer, while all kinds of things may be going on: there
may be requests of the channel and of others, their reports may be on their way, and the listener
may be replying, or gathering a message. What was sent ahead of the answer is passed over. So the
host is welcomed, unless the listener is gathering a message when INIT comes. In the middle of a
message of its own channel INIT is answered with an error, although it is meant to make the gateway
give up whatever it was doing on the channel; in the middle of another one's message it is not
answered.

## Main definitions

* `passes`: reports that a reader of the answer to INIT passes over.
* `initPacket`, `welcomePacket`: INIT and its answer.
* `Listener.Answers`: what a listener answers to INIT.
* `Dialogue.handshake`: a host that sends INIT.
* `Dialogue.keepsClear`: the rule that nothing else is said that looks like an answer to INIT.
* `Dialogue.Calls`: how far the host has got.
* `Dialogue.ComesTo`: what the exchange of a host always can end with, and only ends with.

## Main results

* `System.hears_init`: the gateway answers at once.
* `Dialogue.Calls.step`, `Dialogue.Handshaking.leads`: what follows, and where it leads.
* `Dialogue.welcomed_iff_not_gathering`: when the host is welcomed.
-/

namespace Ctap.Gateway

open Hid (ChannelId Command ErrorCode Exchange Handshake Packet Reader Reassembler)
open Link (Conversation)

variable {δ : Type} {config : Config} {channel : ChannelId} {nonce : Bytes} {report answer : Bytes}
  {reports : List Bytes}

/-! ### What the host makes of reports -/

/-- The reader of the answer to INIT. -/
def welcomeReader (channel : ChannelId) : Reader := .awaiting channel Command.init.toByte true

/-- Whether a report can be read and does not open an INIT or error message on a channel. -/
def passes (channel : ChannelId) (report : Bytes) : Bool :=
  match Packet.decode report with
  | .ok packet => !Reader.opensHandshake channel packet
  | .error _ => false

/-- Reports are passed over. -/
theorem feed_passed (h : ∀ report ∈ reports, passes channel report = true) (more : List Bytes) :
    (welcomeReader channel).feed (reports ++ more) = (welcomeReader channel).feed more := by
  induction reports with
  | nil => rfl
  | cons report reports ih =>
    have hreport := h report (List.mem_cons_self ..)
    rw [passes] at hreport
    split at hreport
    · rename_i hdecode
      have hpush : (welcomeReader channel).push report = .ok (welcomeReader channel, none) :=
        Reader.push_discard hdecode (by simpa using hreport)
      rw [List.cons_append, Reader.feed_cons_none hpush,
        ih fun report h' => h report (List.mem_cons_of_mem _ h')]
    · cases hreport

theorem feed_errorPacket (code : ErrorCode) (more : List Bytes) :
    (welcomeReader channel).feed (Hid.errorPacket channel code :: more) =
      .failed (.deviceError code.toByte) :=
  Reader.feed_cons_error (Reader.push_error
    (Packet.decode_encode_initial Hid.reportSize channel (by rfl) 1 [code.toByte]) (by decide)) more

theorem passes_errorPacket {other : ChannelId} (h : other ≠ channel) (code : ErrorCode) :
    passes channel (Hid.errorPacket other code) = true := by
  have hother : (other == channel) = false := beq_eq_false_iff_ne.2 h
  rw [passes, Hid.errorPacket, Packet.decode_encode_initial _ other (by rfl)]
  simp [Reader.opensHandshake, hother]

/-! ### INIT and its answer -/

theorem messageReports_of_le {command : Command} {payload : Bytes}
    (h : payload.length ≤ Hid.reportSize - Hid.initialHeaderSize) :
    messageReports command channel payload = [Packet.encode Hid.reportSize
      (.initial channel command.toByte (UInt16.ofNat payload.length) payload)] := by
  rw [messageReports, Hid.messagePackets_of_le (by decide) h, List.map_singleton]

/-- The packet of INIT on a channel. -/
def initPacket (channel : ChannelId) (nonce : Bytes) : Bytes :=
  Packet.encode Hid.reportSize
    (.initial channel Command.init.toByte (UInt16.ofNat nonce.length) nonce)

/-- The packet that answers it: the nonce, the channel, version 2 of the protocol, the version of the
device and its capabilities, 17 octets on the same channel. -/
def welcomePacket (config : Config) (channel : ChannelId) (nonce : Bytes) : Bytes :=
  Packet.encode Hid.reportSize
    (.initial channel Command.init.toByte 17 (nonce ++ Bytes.ofUInt32 channel ++ [2] ++
      config.deviceVersion ++ [config.capabilities]))

theorem packetize_nonce (hnonce : nonce.length = Hid.nonceSize) :
    Hid.packetize .init channel nonce Hid.reportSize = .ok [initPacket channel nonce] := by
  rw [packetize_of_le (by rw [hnonce]; decide), messageReports_of_le (by rw [hnonce]; decide)]
  rfl

theorem length_welcome (hversion : config.deviceVersion.length = 3)
    (hnonce : nonce.length = Hid.nonceSize) :
    (welcome config nonce channel).encode.length = Hid.handshakeSize :=
  Hid.Welcome.length_encode hnonce hversion

theorem messageReports_welcome (hversion : config.deviceVersion.length = 3)
    (hnonce : nonce.length = Hid.nonceSize) :
    messageReports .init channel (welcome config nonce channel).encode =
      [welcomePacket config channel nonce] := by
  have hlength := @length_welcome config channel nonce hversion hnonce
  rw [messageReports_of_le (by rw [hlength]; decide), hlength]
  rfl

theorem answerReports_welcome (hversion : config.deviceVersion.length = 3)
    (hnonce : nonce.length = Hid.nonceSize) :
    answerReports .init channel (welcome config nonce channel).encode =
      [welcomePacket config channel nonce] := by
  have hlength := @length_welcome config channel nonce hversion hnonce
  rw [answerReports_of_le (by rw [hlength]; decide), messageReports_welcome hversion hnonce]

/-- The answer ends the handshake. -/
theorem feed_welcomePacket (hversion : config.deviceVersion.length = 3)
    (hnonce : nonce.length = Hid.nonceSize) (more : List Bytes) :
    (welcomeReader channel).feed (welcomePacket config channel nonce :: more) =
      .gave (welcome config nonce channel).encode more := by
  have hlength := @length_welcome config channel nonce hversion hnonce
  have hfeed := Reader.feed_message (show Hid.initialHeaderSize < Hid.reportSize by decide) channel
    Command.init.no_type_bit (show true = true → _ from fun _ => rfl)
    (show (welcome config nonce channel).encode.length ≤ Hid.maxPayload Hid.reportSize by
      rw [hlength]; decide) more
  rwa [← messageReports, messageReports_welcome hversion hnonce] at hfeed

/-! ### What the gateway answers -/

/-- What a listener answers to INIT, once it has sent what it is about to send. -/
inductive Listener.Answers (config : Config) (channel : ChannelId) (nonce : Bytes) :
    Listener → Bytes → Prop where
  | free {reports : List Bytes} (clear : ∀ report ∈ reports, passes channel report = true) :
    Answers config channel nonce (.reply reports) (welcomePacket config channel nonce)
  | gathering {m : Inbound} {deadline : Time} (begun : m.Begun) :
    Answers config channel nonce (.gathering m deadline) (Hid.errorPacket m.channel
      (if channel = m.channel then .invalidSequence else .invalidCommand))

/-- The reports that a listener is about to send. -/
def Listener.queued : Listener → List Bytes
  | .replying report rest => report :: rest
  | _ => []

@[simp] theorem Listener.queued_reply (reports : List Bytes) :
    (Listener.reply reports).queued = reports := by
  cases reports <;> rfl

theorem Listener.eq_replying {l : Listener} {rest : List Bytes} (h : l.queued = report :: rest) :
    l = .replying report rest := by
  cases l with
  | replying =>
    cases h
    rfl
  | idle | gathering | stopped => cases h

variable {s t : System δ} {now : Time} {draws : List ChannelId} {l : Listener}

private theorem push_initPacket (hnonce : nonce.length = Hid.nonceSize) : ∃ next,
    (Reassembler.await channel Command.init.toByte).push (initPacket channel nonce) =
      .ok (next, some nonce) := by
  have hlength : (initPacket channel nonce).length = Hid.reportSize := by
    refine Packet.length_encode_initial channel _ _ ?_
    rw [hnonce]
    decide
  have hnat : (UInt16.ofNat nonce.length).toNat = nonce.length := by
    rw [hnonce]
    rfl
  obtain ⟨next, htakes⟩ := Reassembler.await_gives.2 ⟨_, _,
    Packet.decode_encode_initial Hid.reportSize channel Command.init.no_type_bit
      (UInt16.ofNat nonce.length) nonce,
    by rw [← initPacket, hlength, hnat, hnonce]; decide, by rw [hnat, List.length_append]; omega,
    rfl⟩
  rw [hnat, List.take_left] at htakes
  exact ⟨next, Reassembler.push_eq_ok.2 htakes⟩

/-- **INIT is answered at once** by a listener that is free to hear it, in one way or the other. -/
theorem System.hears_init (hversion : s.config.deviceVersion.length = 3)
    (hnonce : nonce.length = Hid.nonceSize) (hzero : channel ≠ 0)
    (hbroadcast : channel ≠ Hid.broadcast)
    (hanswers : s.listener.Answers s.config channel nonce answer) (hqueued : s.listener.queued = [])
    (now : Time) (draws : List ChannelId) :
    ∃ t, s.step? now (.heard (initPacket channel nonce) draws) = some t ∧
      t.listener = .replying answer [] := by
  have hdecode := Packet.decode_encode_initial Hid.reportSize channel Command.init.no_type_bit
    (UInt16.ofNat nonce.length) nonce
  rw [← initPacket] at hdecode
  generalize hl : s.listener = l at hanswers
  cases hanswers with
  | @free reports clear =>
    obtain rfl : reports = [] := by rwa [hl, Listener.queued_reply] at hqueued
    obtain ⟨next, hpush⟩ := @push_initPacket channel nonce hnonce
    have hrespond : respond s.config draws s.table channel Command.init.toByte nonce =
        some (welcomeBack s.config s.table channel nonce) := by
      rw [respond, if_neg hbroadcast, if_neg hzero]
      rfl
    have hhear : s.listener.hear s.config draws now s.table (initPacket channel nonce) =
        some (.reply (welcomeBack s.config s.table channel nonce).reports,
          welcomeBack s.config s.table channel nonce) := by
      have hinbound : s.listener.inbound? (initPacket channel nonce) =
          some ⟨channel, Command.init.toByte, .await channel Command.init.toByte⟩ := by
        rw [hl, Listener.reply, Listener.inbound?, hdecode]
      rw [Listener.hear_of_inbound hinbound, hpush, Listener.proceed, hrespond]
      rfl
    refine ⟨_, by rw [System.step?, hhear]; rfl, ?_⟩
    rw [welcomeBack, if_pos hnonce, answerReports_welcome hversion hnonce]
    rfl
  | gathering begun => exact ⟨_, by rw [System.step?, hl, begun.hear_initial hdecode]; rfl, rfl⟩

theorem System.queued_of_heard (h : s.step? now (.heard report draws) = some t) :
    s.listener.queued = [] := by
  cases hl : s.listener with
  | replying =>
    rw [System.step?, hl] at h
    cases h
  | idle | gathering | stopped => rfl

theorem System.listener_of_subject {e : Event δ} {id : DispatchId} (h : s.step? now e = some t)
    (he : e.subject? = some id) : t.listener = s.listener := by
  rcases listener_cases h with ⟨-, hsame⟩ | ⟨hnone, -⟩
  · exact hsame
  · rw [he] at hnone
    cases hnone

theorem System.listener_delivered {rest : List Bytes} (hl : s.listener = .replying report rest)
    (h : s.step? now (.delivered .listener) = some t) : t.listener = .reply rest := by
  rw [step?, hl] at h
  cases h
  rfl

namespace Dialogue

/-- A host that sends INIT to a gateway, while there are reports on their way to the host. -/
def handshake (now : Time) (channel : ChannelId) (nonce : Bytes) (backlog : List Bytes)
    (gateway : System δ) : Dialogue δ where
  now := now
  host := (Handshake.start channel nonce Hid.reportSize).exchange
  pipe := { Pipe.fresh with toHost.reports := backlog }
  gateway := gateway

/-- The rule that nobody else puts a report into the pipe, that the continuations of a message are
not given up, and that nothing is said for a request that opens an INIT or error message on a
channel. -/
def keepsClear (channel : ChannelId) (s : Dialogue δ) (e : Time × Event δ) : Bool :=
  match e.2 with
  | .intrude _ | .inside .missed => false
  | .handOver (.dispatch id) => (s.gateway.pendingReport? (.dispatch id)).all (passes channel)
  | _ => true

/-- Whether the host reads, and has passed over what was said. -/
def Passes (channel : ChannelId) (s : Dialogue δ) : Prop :=
  ∃ said, (∀ report ∈ said, passes channel report = true) ∧
    s.host.Reads (welcomeReader channel) said s.toHost

/-- How far a host has got that sends INIT and is answered so. -/
inductive Calls (channel : ChannelId) (nonce answer : Bytes) (s : Dialogue δ) : Prop where
  | writing
    (host : s.host = .start (welcomeReader channel) (.ok [initPacket channel nonce]))
    (empty : s.toGateway = [])
    (answers : s.gateway.listener.Answers s.gateway.config channel nonce answer)
    (clear : ∀ report ∈ s.toHost, passes channel report = true)
  | calling (sent : s.toGateway = [initPacket channel nonce])
    (answers : s.gateway.listener.Answers s.gateway.config channel nonce answer)
    (reads : s.Passes channel)
  | owed (empty : s.toGateway = []) (listener : s.gateway.listener = .replying answer [])
    (reads : s.Passes channel)
  | told {before after : List Bytes} (empty : s.toGateway = [])
    (idle : s.gateway.listener = .idle)
    (clear : ∀ report ∈ before ++ after, passes channel report = true)
    (reads : s.host.Reads (welcomeReader channel) (before ++ answer :: after) s.toHost)

variable {s t : Dialogue δ} {e : Event δ}

private theorem Passes.more (h : s.Passes channel) (hreport : passes channel report = true)
    (hhost : t.host = s.host) (hqueue : t.toHost = s.toHost ++ [report]) : t.Passes channel := by
  obtain ⟨said, hclear, hreads⟩ := h
  refine ⟨said ++ [report], ?_, ?_⟩
  · exact List.forall_mem_append.2 ⟨hclear, List.forall_mem_singleton.2 hreport⟩
  · rw [hhost, hqueue]
    exact hreads.more report

private theorem Passes.move (h : s.Passes channel) : Conversation.move s.host = .receive := by
  obtain ⟨said, hclear, hreads⟩ := h
  refine hreads.receive ?_
  have hfeed := feed_passed hclear []
  rw [List.append_nil] at hfeed
  rw [hfeed]
  rfl

private theorem Passes.take {rest : List Bytes} (h : s.Passes channel)
    (hfirst : s.toHost = report :: rest) : ({ s with
      now
      pipe.toHost.reports := rest
      host := s.host.received (.ok report) } : Dialogue δ).Passes channel := by
  have hmove := h.move
  obtain ⟨said, hclear, hreads⟩ := h
  rw [hfirst] at hreads
  exact ⟨said, hclear, hreads.take hmove⟩

private theorem passes_of_keepsClear {id : DispatchId}
    (hpermits : keepsClear channel s (now, .handOver (.dispatch id)) = true)
    (hpending : s.gateway.pendingReport? (.dispatch id) = some report) :
    passes channel report = true := by
  change (s.gateway.pendingReport? (.dispatch id)).all (passes channel) = true at hpermits
  rwa [hpending] at hpermits

private theorem Answers.handOver {sender : Sender} {gateway : System δ}
    (hanswers : s.gateway.listener.Answers s.gateway.config channel nonce answer)
    (hpermits : keepsClear channel s (now, .handOver sender) = true)
    (hpending : s.gateway.pendingReport? sender = some report)
    (hstep : s.gateway.step? now (.delivered sender) = some gateway) :
    passes channel report = true ∧
      gateway.listener.Answers gateway.config channel nonce answer := by
  rw [System.config_step hstep]
  cases sender with
  | dispatch id =>
    rw [System.listener_of_subject hstep rfl]
    exact ⟨passes_of_keepsClear hpermits hpending, hanswers⟩
  | listener =>
    generalize hl : s.gateway.listener = l at hanswers
    rw [System.pendingReport?, hl] at hpending
    cases hanswers with
    | gathering => cases hpending
    | @free reports clear =>
      cases reports with
      | nil => cases hpending
      | cons first rest =>
        cases hpending
        rw [System.listener_delivered hl hstep]
        exact ⟨clear report (List.mem_cons_self ..),
          .free fun report hreport => clear report (List.mem_cons_of_mem _ hreport)⟩

private theorem listener_inside {event : Gateway.Event δ} {gateway : System δ}
    (hpermits : keepsClear channel s (now, .inside event) = true)
    (hinside : isInside event = true) (h : s.gateway.step? now event = some gateway) :
    gateway.listener = s.gateway.listener := by
  cases event with
  | missed => cases hpermits
  | heard | failed | shutdown | delivered | undelivered => cases hinside
  | _ => exact System.listener_of_subject h rfl

namespace Calls

section

variable (hpermits : keepsClear channel s (now, e) = true) (hturn : s.Turn now e t)

include hpermits hturn

private theorem of_writing
    (host : s.host = .start (welcomeReader channel) (.ok [initPacket channel nonce]))
    (empty : s.toGateway = [])
    (answers : s.gateway.listener.Answers s.gateway.config channel nonce answer)
    (clear : ∀ report ∈ s.toHost, passes channel report = true) :
    Calls channel nonce answer t := by
  cases hturn with
  | write move =>
    rw [host] at move
    cases move
    refine .calling ?_ answers ⟨s.toHost, clear, ?_⟩
    · change s.toGateway ++ [initPacket channel nonce] = _
      rw [empty, List.nil_append]
    · change Exchange.Reads _ s.toHost s.toHost (s.host.sent (.ok ()))
      rw [host]
      exact .reading rfl
  | take move =>
    rw [host] at move
    cases move
  | hear first => cases empty.symm.trans first
  | handOver pending there room step =>
    obtain ⟨hpasses, hanswers⟩ := Answers.handOver answers hpermits pending step
    exact .writing host empty hanswers
      (List.forall_mem_append.2 ⟨clear, List.forall_mem_singleton.2 hpasses⟩)
  | inside inside step =>
    have hlistener := listener_inside hpermits inside step
    exact .writing host empty (by rwa [hlistener, System.config_step step]) clear
  | intrude => cases hpermits

private theorem of_calling (hversion : s.gateway.config.deviceVersion.length = 3)
    (hnonce : nonce.length = Hid.nonceSize) (hzero : channel ≠ 0)
    (hbroadcast : channel ≠ Hid.broadcast) (sent : s.toGateway = [initPacket channel nonce])
    (answers : s.gateway.listener.Answers s.gateway.config channel nonce answer)
    (reads : s.Passes channel) : Calls channel nonce answer t := by
  cases hturn with
  | write move => cases reads.move.symm.trans move
  | take move first => exact .calling sent answers (reads.take first)
  | @hear draws report rest gateway first step =>
    rw [sent] at first
    cases first
    obtain ⟨gateway', hstep, hlistener⟩ := System.hears_init hversion hnonce hzero hbroadcast
      answers (System.queued_of_heard step) now draws
    cases step.symm.trans hstep
    exact .owed rfl hlistener reads
  | handOver pending there room step =>
    obtain ⟨hpasses, hanswers⟩ := Answers.handOver answers hpermits pending step
    exact .calling sent hanswers (reads.more hpasses rfl rfl)
  | inside inside step =>
    have hlistener := listener_inside hpermits inside step
    exact .calling sent (by rwa [hlistener, System.config_step step]) reads
  | intrude => cases hpermits

private theorem of_owed (empty : s.toGateway = [])
    (listener : s.gateway.listener = .replying answer []) (reads : s.Passes channel) :
    Calls channel nonce answer t := by
  cases hturn with
  | write move => cases reads.move.symm.trans move
  | take move first => exact .owed empty listener (reads.take first)
  | hear first => cases empty.symm.trans first
  | @handOver sender report gateway pending there room step =>
    cases sender with
    | listener =>
      rw [System.pendingReport?, listener] at pending
      cases pending
      obtain ⟨said, hclear, hreads⟩ := reads
      exact .told empty (System.listener_delivered listener step) (by rwa [List.append_nil])
        (hreads.more _)
    | dispatch id =>
      exact .owed empty ((System.listener_of_subject step rfl).trans listener)
        (reads.more (passes_of_keepsClear hpermits pending) rfl rfl)
  | inside inside step =>
    exact .owed empty ((listener_inside hpermits inside step).trans listener) reads
  | intrude => cases hpermits

private theorem of_told {before after : List Bytes} (empty : s.toGateway = [])
    (idle : s.gateway.listener = .idle)
    (clear : ∀ report ∈ before ++ after, passes channel report = true)
    (reads : s.host.Reads (welcomeReader channel) (before ++ answer :: after) s.toHost) :
    Calls channel nonce answer t := by
  cases hturn with
  | write move =>
    rcases reads.move with hmove | ⟨result, hended⟩
    · cases hmove.symm.trans move
    · rw [hended] at move
      cases move
  | take move first =>
    rw [first] at reads
    exact .told empty idle clear (reads.take move)
  | hear first => cases empty.symm.trans first
  | @handOver sender report gateway pending there room step =>
    cases sender with
    | listener =>
      rw [System.pendingReport?, idle] at pending
      cases pending
    | dispatch id =>
      have hmore := reads.more report
      rw [List.append_assoc, List.cons_append] at hmore
      refine .told empty ((System.listener_of_subject step rfl).trans idle) ?_ hmore
      rw [← List.append_assoc]
      exact List.forall_mem_append.2
        ⟨clear, List.forall_mem_singleton.2 (passes_of_keepsClear hpermits pending)⟩
  | inside inside step =>
    exact .told empty ((listener_inside hpermits inside step).trans idle) clear reads
  | intrude => cases hpermits

end

/-- **Whatever happens, the host gets its answer.** -/
theorem step (hs : Calls channel nonce answer s)
    (hversion : s.gateway.config.deviceVersion.length = 3) (hnonce : nonce.length = Hid.nonceSize)
    (hzero : channel ≠ 0) (hbroadcast : channel ≠ Hid.broadcast)
    (hpermits : keepsClear channel s (now, e) = true) (h : s.step? now e = some t) :
    Calls channel nonce answer t := by
  obtain ⟨-, hturn⟩ := step?_eq_some.1 h
  cases hs with
  | writing host empty answers clear => exact of_writing hpermits hturn host empty answers clear
  | calling sent answers reads =>
    exact of_calling hpermits hturn hversion hnonce hzero hbroadcast sent answers reads
  | owed empty listener reads => exact of_owed hpermits hturn empty listener reads
  | told empty idle clear reads => exact of_told hpermits hturn empty idle clear reads

/-- A host that has ended was told the answer. -/
theorem ended {result : Except Link.Error Bytes} (hs : Calls channel nonce answer s)
    (hended : s.host = .ended result) : ∃ after, (∀ report ∈ after, passes channel report = true) ∧
      ((welcomeReader channel).feed (answer :: after)).result? = some result := by
  have hreceives (hreads : s.Passes channel) : False := by
    have hmove := hreads.move
    rw [hended] at hmove
    cases hmove
  cases hs with
  | writing host =>
    rw [hended] at host
    cases host
  | calling sent answers reads => exact (hreceives reads).elim
  | owed empty listener reads => exact (hreceives reads).elim
  | @told before after empty idle clear reads =>
    obtain ⟨hbefore, hafter⟩ := List.forall_mem_append.1 clear
    rw [hended] at reads
    exact ⟨after, hafter, feed_passed hbefore _ ▸ reads.result⟩

end Calls

/-! ### Where it leads -/

/-- What is left to do: packets are put into the pipe and heard, and reports are said and taken. -/
def remaining (s : Dialogue δ) : Nat :=
  4 * s.host.unsent.length + 3 * s.toGateway.length +
    (2 * s.gateway.listener.queued.length + s.toHost.length)

/-- Whether a host that sends INIT to a gateway, and is to be answered so, is in order. -/
structure Handshaking (config : Config) (channel : ChannelId) (nonce answer : Bytes)
    (s : Dialogue δ) : Prop where
  config : s.gateway.config = config
  gateway : s.pipe.toGateway.hasReceiver = true
  host : s.pipe.toHost.hasReceiver = true
  /-- The host has got so far. -/
  calls : Calls channel nonce answer s

private theorem takes {rest : List Bytes} (hmove : Conversation.move s.host = .receive)
    (hfirst : s.toHost = report :: rest) :
    ∃ t, s.step? s.now .take = some t ∧ t.remaining < s.remaining := by
  refine ⟨_, step?_now (.take hmove hfirst), ?_⟩
  have hunsent : (s.host.received (.ok report)).unsent = [] := Exchange.unsent_received hmove _
  change 4 * (s.host.received (.ok report)).unsent.length + 3 * s.toGateway.length +
    (2 * s.gateway.listener.queued.length + rest.length) < s.remaining
  rw [remaining, hunsent, hfirst, List.length_nil, List.length_cons]
  omega

namespace Handshaking

theorem start {gateway : System δ} {backlog : List Bytes} (hconfig : gateway.config = config)
    (hnonce : nonce.length = Hid.nonceSize)
    (hanswers : gateway.listener.Answers config channel nonce answer)
    (hbacklog : ∀ report ∈ backlog, passes channel report = true) (now : Time) :
    (handshake now channel nonce backlog gateway).Handshaking config channel nonce answer := by
  refine ⟨hconfig, rfl, rfl, .writing ?_ rfl (by rwa [← hconfig] at hanswers) hbacklog⟩
  rw [handshake, Handshake.start, packetize_nonce hnonce]
  rfl

variable (hversion : config.deviceVersion.length = 3) (hnonce : nonce.length = Hid.nonceSize)
  (hzero : channel ≠ 0) (hbroadcast : channel ≠ Hid.broadcast)

include hversion hnonce hzero hbroadcast

/-- **A handshake remains in order** whatever its two ends do. -/
theorem step (hs : s.Handshaking config channel nonce answer)
    (hpermits : keepsClear channel s (now, e) = true) (h : s.step? now e = some t) :
    t.Handshaking config channel nonce answer := by
  have hcalls := hs.calls.step (hs.config ▸ hversion) hnonce hzero hbroadcast hpermits h
  have hpipe : t.pipe.toGateway.hasReceiver = true ∧ t.pipe.toHost.hasReceiver = true := by
    obtain ⟨-, hturn⟩ := step?_eq_some.1 h
    cases hturn <;> exact ⟨hs.gateway, hs.host⟩
  rcases gateway_step h with ⟨event, -, hstep, -⟩ | ⟨hsame, -⟩
  · exact ⟨(System.config_step hstep).trans hs.config, hpipe.1, hpipe.2, hcalls⟩
  · exact ⟨hsame ▸ hs.config, hpipe.1, hpipe.2, hcalls⟩

theorem run {seen : List (Time × Event δ)} (hs : s.Handshaking config channel nonce answer)
    (hrun : Machine.run? (keepsClear channel) s seen = some t) :
    t.Handshaking config channel nonce answer :=
  Machine.run?_induction (P := Handshaking config channel nonce answer)
    (fun _ _ _ hs hpermits hstep => hs.step hversion hnonce hzero hbroadcast hpermits hstep) hs hrun

omit hversion hnonce hzero hbroadcast in
private theorem speaks {rest : List Bytes} (hs : s.Handshaking config channel nonce answer)
    (hmove : Conversation.move s.host = .receive)
    (hlistener : s.gateway.listener = .replying report rest) :
    ∃ e t, keepsClear channel s (s.now, e) = true ∧ s.step? s.now e = some t ∧
      t.remaining < s.remaining := by
  by_cases hroom : s.toHost.length < pipeDepth
  · have hpending : s.gateway.pendingReport? .listener = some report := by
      rw [System.pendingReport?, hlistener]
    have hstep : s.gateway.step? s.now (.delivered .listener) =
        some { s.gateway with listener := .reply rest } := by
      rw [System.step?, hlistener]
    refine ⟨_, _, rfl, step?_now (.handOver hpending hs.host hroom hstep), ?_⟩
    change 4 * s.host.unsent.length + 3 * s.toGateway.length +
      (2 * (Listener.reply rest).queued.length + (s.toHost ++ [report]).length) < s.remaining
    rw [remaining, hlistener, Listener.queued_reply, List.length_append]
    simp only [Listener.queued, List.length_cons, List.length_nil]
    omega
  · cases hqueue : s.toHost with
    | nil =>
      rw [hqueue] at hroom
      exact absurd (by decide) hroom
    | cons first others =>
      obtain ⟨t, hstep, hless⟩ := takes hmove hqueue
      exact ⟨.take, t, rfl, hstep, hless⟩

/-- **The handshake goes on** until the host has ended, if the answer ends it. -/
theorem advances (hs : s.Handshaking config channel nonce answer)
    (hends : ∀ after, ((welcomeReader channel).feed (answer :: after)).result? ≠ none) :
    (∃ result, s.host = .ended result) ∨ ∃ e t, keepsClear channel s (s.now, e) = true ∧
      s.step? s.now e = some t ∧ t.remaining < s.remaining := by
  cases hs.calls with
  | writing host empty answers clear =>
    have hmove : Conversation.move s.host = .send (initPacket channel nonce) := by
      rw [host]
      rfl
    have hroom : s.toGateway.length < pipeDepth := by
      rw [empty]
      decide
    refine .inr ⟨_, _, rfl, step?_now (.write hmove hs.gateway hroom), ?_⟩
    change 4 * (s.host.sent (.ok ())).unsent.length + 3 * (s.toGateway ++ [_]).length +
      (2 * s.gateway.listener.queued.length + s.toHost.length) < s.remaining
    rw [remaining, host, empty, Exchange.sent_start, Exchange.unsent_start, Exchange.unsent_start]
    simp only [List.nil_append, List.length_cons, List.length_nil]
    omega
  | calling sent answers reads =>
    cases hqueued : s.gateway.listener.queued with
    | cons report rest =>
      exact .inr (hs.speaks reads.move (Listener.eq_replying hqueued))
    | nil =>
      obtain ⟨gateway, hstep, hlistener⟩ := System.hears_init (hs.config ▸ hversion) hnonce hzero
        hbroadcast answers hqueued s.now []
      refine .inr ⟨_, _, rfl, step?_now (.hear sent hstep), ?_⟩
      change 4 * s.host.unsent.length + 3 * ([] : List Bytes).length +
        (2 * gateway.listener.queued.length + s.toHost.length) < s.remaining
      rw [remaining, hlistener, hqueued, sent]
      simp only [Listener.queued, List.length_cons, List.length_nil]
      omega
  | owed empty listener reads => exact .inr (hs.speaks reads.move listener)
  | @told before after empty idle clear reads =>
    rcases reads.move with hmove | hended
    · cases hqueue : s.toHost with
      | nil =>
        -- All that was said has been taken, and the answer was among it.
        rw [hqueue] at reads
        have hwaits := reads.waits hmove
        rw [feed_passed (List.forall_mem_append.1 clear).1] at hwaits
        exact absurd hwaits (hends after)
      | cons report rest =>
        obtain ⟨t, hstep, hless⟩ := takes hmove hqueue
        exact .inr ⟨.take, t, rfl, hstep, hless⟩
    · exact .inl hended

/-- The host can come to an end. -/
theorem leads (hs : s.Handshaking config channel nonce answer)
    (hends : ∀ after, ((welcomeReader channel).feed (answer :: after)).result? ≠ none) :
    ∃ t, Machine.Leads (keepsClear channel) s t ∧ ∃ result, t.host = .ended result := by
  refine Machine.Leads.countdown
    (P := fun n (s : Dialogue δ) => s.Handshaking config channel nonce answer ∧ s.remaining = n)
    (fun n s hs => ?_) ⟨hs, rfl⟩
  obtain ⟨hs, rfl⟩ := hs
  refine (hs.advances hversion hnonce hzero hbroadcast hends).imp_right ?_
  rintro ⟨e, t, hpermits, hstep, hless⟩
  exact ⟨_, t, _, hpermits, hstep, hless,
    hs.step hversion hnonce hzero hbroadcast hpermits hstep, rfl⟩

end Handshaking

/-- Whether the exchange of a host comes to a result, by the rule: it can always end, and it ends
with nothing else. -/
def ComesTo (channel : ChannelId) (s : Dialogue δ) (result : Except Link.Error Bytes) : Prop :=
  ∀ seen t, Machine.run? (keepsClear channel) s seen = some t →
    (∀ other, t.host = .ended other → other = result) ∧
    ∃ u, Machine.Leads (keepsClear channel) t u ∧ u.host = .ended result

/-- A host comes to what its reader makes of the answer. -/
theorem Handshaking.comesTo {result : Except Link.Error Bytes}
    (hs : s.Handshaking config channel nonce answer)
    (hversion : config.deviceVersion.length = 3) (hnonce : nonce.length = Hid.nonceSize)
    (hzero : channel ≠ 0) (hbroadcast : channel ≠ Hid.broadcast)
    (hresult : ∀ after, ((welcomeReader channel).feed (answer :: after)).result? = some result) :
    s.ComesTo channel result := by
  have honly {u : Dialogue δ} {other : Except Link.Error Bytes}
      (hu : u.Handshaking config channel nonce answer) (hended : u.host = .ended other) :
      other = result := by
    obtain ⟨after, -, hother⟩ := hu.calls.ended hended
    exact Option.some.inj (hother.symm.trans (hresult after))
  intro seen t hrun
  have ht := hs.run hversion hnonce hzero hbroadcast hrun
  obtain ⟨u, ⟨more, hmore⟩, other, hended⟩ :=
    ht.leads hversion hnonce hzero hbroadcast fun after => by simp [hresult after]
  have hu := ht.run hversion hnonce hzero hbroadcast hmore
  exact ⟨fun _ => honly ht, u, ⟨more, hmore⟩, honly hu hended ▸ hended⟩

theorem Handshaking.never_ended (hs : s.Handshaking config channel nonce answer)
    (hanswer : passes channel answer = true) (result : Except Link.Error Bytes) :
    s.host ≠ .ended result := by
  intro hended
  obtain ⟨after, hafter, hresult⟩ := hs.calls.ended hended
  have hfeed := @feed_passed channel (answer :: after) (List.forall_mem_cons.2 ⟨hanswer, hafter⟩) []
  rw [List.append_nil] at hfeed
  rw [hfeed] at hresult
  cases hresult

/-! ### When the host is welcomed -/

/-- A listener that has not stopped answers INIT: it welcomes the host unless it is gathering. -/
private theorem answers_or {l : Listener} (hlistens : ∀ result, l ≠ .stopped result)
    (hclear : ∀ report ∈ l.queued, passes channel report = true)
    (hbegun : ∀ m deadline, l = .gathering m deadline → m.Begun) :
    (∀ m deadline, l ≠ .gathering m deadline) ∧
        l.Answers config channel nonce (welcomePacket config channel nonce) ∨
      ∃ m deadline, l = .gathering m deadline ∧ l.Answers config channel nonce
        (Hid.errorPacket m.channel (if channel = m.channel then .invalidSequence
          else .invalidCommand)) := by
  cases l with
  | idle => exact .inl ⟨by simp, @Listener.Answers.free config channel nonce [] (by simp)⟩
  | replying report rest =>
    exact .inl ⟨by simp, @Listener.Answers.free config channel nonce (report :: rest) hclear⟩
  | gathering m deadline => exact .inr ⟨m, deadline, rfl, .gathering (hbegun m deadline rfl)⟩
  | stopped result => exact absurd rfl (hlistens result)

private theorem errorPacket_ne_welcomePacket (other : ChannelId) (code : ErrorCode) :
    Hid.errorPacket other code ≠ welcomePacket config channel nonce := by
  intro h
  have hdecode := congrArg Packet.decode h
  rw [Hid.errorPacket, Packet.decode_encode_initial _ other (by rfl), welcomePacket,
    Packet.decode_encode_initial _ channel (by rfl)] at hdecode
  cases hdecode

section

variable {gateway : System δ} {backlog : List Bytes} {m : Inbound} {code : ErrorCode}
  (hconfig : gateway.config = config) (hversion : config.deviceVersion.length = 3)
  (hnonce : nonce.length = Hid.nonceSize) (hzero : channel ≠ 0)
  (hbroadcast : channel ≠ Hid.broadcast)
  (hbacklog : ∀ report ∈ backlog, passes channel report = true) (start : Time)

include hconfig hversion hnonce hzero hbroadcast hbacklog

private theorem comesTo_welcome
    (hanswers : gateway.listener.Answers config channel nonce (welcomePacket config channel nonce)) :
    (handshake start channel nonce backlog gateway).ComesTo channel
      (.ok (welcome config nonce channel).encode) :=
  (Handshaking.start hconfig hnonce hanswers hbacklog start).comesTo hversion hnonce hzero
    hbroadcast fun after => by rw [feed_welcomePacket hversion hnonce]; rfl

private theorem comesTo_error
    (hanswers : gateway.listener.Answers config channel nonce (Hid.errorPacket channel code)) :
    (handshake start channel nonce backlog gateway).ComesTo channel
      (.error (.deviceError code.toByte)) :=
  (Handshaking.start hconfig hnonce hanswers hbacklog start).comesTo hversion hnonce hzero
    hbroadcast fun after => by rw [feed_errorPacket]; rfl

private theorem waits_forever (hother : m.channel ≠ channel)
    (hanswers : gateway.listener.Answers config channel nonce (Hid.errorPacket m.channel code))
    (seen : List (Time × Event δ)) (t : Dialogue δ)
    (hrun : Machine.run? (keepsClear channel) (handshake start channel nonce backlog gateway) seen =
      some t) (result : Except Link.Error Bytes) : t.host ≠ .ended result :=
  ((Handshaking.start hconfig hnonce hanswers hbacklog start).run hversion hnonce hzero hbroadcast
    hrun).never_ended (passes_errorPacket hother code) result

end

/-- **A host that sends INIT is welcomed if and only if no message is being gathered.** The gateway
has served for a while, and listens; there may be requests in flight, and what was said before, or
is said for them, opens no INIT or error message on the channel. The welcome repeats the nonce and
the channel. In the middle of a message of the channel the handshake ends with an error; in the
middle of another one it does not end. -/
theorem welcomed_iff_not_gathering {events : List (Time × Gateway.Event δ)} {gateway : System δ}
    {backlog : List Bytes}
    (hreached : Machine.run? Machine.free (System.fresh config) events = some gateway)
    (hlistens : ∀ result, gateway.listener ≠ .stopped result)
    (hclear : ∀ report ∈ gateway.listener.queued ++ backlog, passes channel report = true)
    (hzero : channel ≠ 0) (hbroadcast : channel ≠ Hid.broadcast)
    (hnonce : nonce.length = Hid.nonceSize) (hversion : config.deviceVersion.length = 3)
    (start : Time) :
    (gateway.listener.queued = [] → ∀ now draws, ∃ next,
      gateway.step? now (.heard (initPacket channel nonce) draws) = some next ∧
      (next.listener.queued = [welcomePacket config channel nonce] ↔
        ∀ m deadline, gateway.listener ≠ .gathering m deadline)) ∧
    ((handshake start channel nonce backlog gateway).ComesTo channel
        (.ok (welcome config nonce channel).encode) ↔
      ∀ m deadline, gateway.listener ≠ .gathering m deadline) ∧
    Handshake.conclude nonce (.ok (welcome config nonce channel).encode) =
      .ok ⟨nonce, channel, 2, config.deviceVersion, config.capabilities⟩ ∧
    ∀ m deadline, gateway.listener = .gathering m deadline →
      (m.channel = channel → (handshake start channel nonce backlog gateway).ComesTo channel
        (.error (.deviceError ErrorCode.invalidSequence.toByte))) ∧
      (m.channel ≠ channel → ∀ seen t, Machine.run? (keepsClear channel)
          (handshake start channel nonce backlog gateway) seen = some t →
        ∀ result, t.host ≠ .ended result) := by
  have hconfig : gateway.config = config :=
    Machine.run?_induction (P := fun s : System δ => s.config = config)
      (fun _ _ _ hs _ hstep => (System.config_step hstep).trans hs) rfl hreached
  obtain ⟨hqueued, hbacklog⟩ := List.forall_mem_append.1 hclear
  have hconclude : Handshake.conclude nonce (.ok (welcome config nonce channel).encode) =
      .ok ⟨nonce, channel, 2, config.deviceVersion, config.capabilities⟩ := by
    rw [Handshake.conclude, Hid.Welcome.decode_encode hnonce hversion]
    exact if_pos rfl
  have hhears {answer : Bytes} (hanswers : gateway.listener.Answers config channel nonce answer)
      (hnothing : gateway.listener.queued = []) (now : Time) (draws : List ChannelId) :
      ∃ next, gateway.step? now (.heard (initPacket channel nonce) draws) = some next ∧
        next.listener.queued = [answer] := by
    obtain ⟨next, hstep, hlistener⟩ := System.hears_init (hconfig.symm ▸ hversion) hnonce hzero
      hbroadcast (hconfig.symm ▸ hanswers) hnothing now draws
    exact ⟨next, hstep, by rw [hlistener]; rfl⟩
  rcases answers_or hlistens hqueued (System.begun hreached) with
    ⟨hnone, hanswers⟩ | ⟨m, deadline, hl, hanswers⟩
  · have hwelcome := comesTo_welcome hconfig hversion hnonce hzero hbroadcast hbacklog start hanswers
    refine ⟨fun hnothing now draws => ?_, iff_of_true hwelcome hnone, hconclude,
      fun m deadline hl => absurd hl (hnone m deadline)⟩
    obtain ⟨next, hstep, hanswer⟩ := hhears hanswers hnothing now draws
    exact ⟨next, hstep, iff_of_true hanswer hnone⟩
  · have hgathering : ¬ ∀ m deadline, gateway.listener ≠ .gathering m deadline :=
      fun h => h m deadline hl
    have hown (hon : m.channel = channel) :
        (handshake start channel nonce backlog gateway).ComesTo channel
          (.error (.deviceError ErrorCode.invalidSequence.toByte)) := by
      subst hon
      rw [if_pos rfl] at hanswers
      exact comesTo_error hconfig hversion hnonce hzero hbroadcast hbacklog start hanswers
    have hother (hon : m.channel ≠ channel) :=
      waits_forever hconfig hversion hnonce hzero hbroadcast hbacklog start hon hanswers
    refine ⟨fun hnothing now draws => ?_, iff_of_false (fun hwelcome => ?_) hgathering, hconclude,
      fun m' deadline' hl' => ?_⟩
    · obtain ⟨next, hstep, hanswer⟩ := hhears hanswers hnothing now draws
      refine ⟨next, hstep, iff_of_false (fun hwelcome => ?_) hgathering⟩
      rw [hanswer] at hwelcome
      exact errorPacket_ne_welcomePacket _ _ (List.singleton_inj.1 hwelcome)
    · obtain ⟨-, u, ⟨more, hmore⟩, hended⟩ := hwelcome [] _ rfl
      by_cases hon : m.channel = channel
      · cases (hown hon more u hmore).1 _ hended
      · exact hother hon more u hmore _ hended
    · cases hl.symm.trans hl'
      exact ⟨hown, hother⟩

/-- The nonce of a host. -/
def someNonce : Bytes := [1, 2, 3, 4, 5, 6, 7, 8]

/-- A request on channel 5 is handed to a device, and cancelled. -/
def cancelledRun : List (Time × Gateway.Event Unit) :=
  [(0, .heard (Packet.encode Hid.reportSize (.initial 5 Command.cbor.toByte 1 [4])) []),
    (0, .enumerated 0 (.ok (.ofList [()]))),
    (1, .heard (Packet.encode Hid.reportSize (.initial 5 Command.cancel.toByte 0 [])) [])]

/-- INIT is sent and answered. -/
def handshakeRun : List (Time × Event Unit) :=
  [(2, .write), (2, .hear []), (2, .handOver .listener), (2, .take)]

set_option maxRecDepth 4000 in
/-- A host is welcomed on a channel with a request in flight that was cancelled. -/
theorem welcomed_with_request_in_flight : ∃ gateway t,
    Machine.run? Machine.free (System.fresh .standard) cancelledRun = some gateway ∧
    gateway.table.dispatchOn? 5 = some 0 ∧
    Machine.run? (keepsClear 5) (handshake 2 5 someNonce [] gateway) handshakeRun = some t ∧
    t.host = .ended (.ok (welcome .standard someNonce 5).encode) ∧
    Handshake.conclude someNonce (.ok (welcome .standard someNonce 5).encode) =
      .ok ⟨someNonce, 5, 2, [1, 0, 0], 0x0C⟩ ∧
    (handshake 2 5 someNonce [] gateway).ComesTo 5
      (.ok (welcome .standard someNonce 5).encode) := by
  have hwelcomed {gateway : System Unit}
      (hreached : Machine.run? Machine.free (System.fresh .standard) cancelledRun = some gateway) :
      (handshake 2 5 someNonce [] gateway).ComesTo 5
        (.ok (welcome .standard someNonce 5).encode) := by
    have hidle : gateway.listener = .idle := by
      cases hreached
      rfl
    obtain ⟨-, hiff, -⟩ := @welcomed_iff_not_gathering Unit .standard 5 someNonce cancelledRun
      gateway [] hreached (by simp [hidle]) (by simp [hidle, Listener.queued]) (by decide)
      (by decide) rfl rfl 2
    exact hiff.2 (by simp [hidle])
  exact ⟨_, _, rfl, rfl, rfl, rfl, rfl, hwelcomed rfl⟩

/-- A PING of sixty octets on channel 5 has begun. -/
def begunRun : List (Time × Gateway.Event Unit) :=
  [(0, .heard (Packet.encode Hid.reportSize
    (.initial 5 Command.ping.toByte 60 (List.replicate 57 4))) [])]

set_option maxRecDepth 4000 in
/-- In the middle of a PING of its channel INIT is answered with an error. -/
theorem refused_in_the_middle : ∃ gateway t,
    Machine.run? Machine.free (System.fresh .standard) begunRun = some gateway ∧
    Machine.run? (keepsClear 5) (handshake 2 5 someNonce [] gateway) handshakeRun = some t ∧
    t.host = .ended (.error (.deviceError ErrorCode.invalidSequence.toByte)) ∧
    Handshake.conclude someNonce (.error (.deviceError ErrorCode.invalidSequence.toByte)) =
      .error (.deviceError ErrorCode.invalidSequence.toByte) :=
  ⟨_, _, rfl, rfl, rfl, rfl⟩

end Dialogue

end Ctap.Gateway
