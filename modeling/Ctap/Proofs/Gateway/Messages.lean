import Ctap.Proofs.Gateway.Resynchronisation

/-!
# Messages on their way to the host

Whoever sends reports to the host sends whole messages: the reports that a sender has left to send
are the rest of one message. What is sent on a channel is a sequence of whole messages as long as
nobody sends a report there while somebody else is in the middle of a message. Once somebody does,
the message is torn, and whatever is sent afterwards, what has been sent is no such sequence.

## Main definitions

* `IsMessage`: the reports of a message.
* `Whole`, `Torn`: whole messages one after the other, and a message torn by another.
* `System.queued`, `System.inMiddle`: what a sender has left to send.
* `Flow`: how far the senders have got with what was sent on a channel.

## Main results

* `Torn.not_whole`: a message that was torn stays torn.
* `System.utters`: what an event does to what a sender has left to send.
* `Flow.deliver`, `Flow.silent`, `Flow.torn`: what an event does to what was sent.
-/

namespace Ctap.Gateway

open Hid (ChannelId Command Packet)

/-! ### Messages -/

/-- Whether reports are those of a message on a channel, all of them and in order. -/
def IsMessage (channel : ChannelId) (reports : List Bytes) : Prop :=
  ∃ command payload, Hid.packetize command channel payload Hid.reportSize = .ok reports

/-- Whether a report begins a message on a channel. -/
def Begins (channel : ChannelId) (report : Bytes) : Prop :=
  ∃ command length data, Packet.decode report = .ok (.initial channel command length data)

/-- Whether a report continues a message on a channel. -/
def continues (channel : ChannelId) (report : Bytes) : Bool :=
  match Packet.decode report with
  | .ok (.continuation c _ _) => c == channel
  | _ => false

/-- Whether reports are what is left of a message on a channel. -/
def IsRest (channel : ChannelId) (reports : List Bytes) : Prop :=
  ∃ message, IsMessage channel message ∧ reports <:+ message

variable {channel c : ChannelId} {report first : Bytes} {reports rest rest' : List Bytes}

theorem continues_iff : continues channel report = true ↔
    ∃ seq data, Packet.decode report = .ok (.continuation channel seq data) := by
  rw [continues]
  split
  · rename_i c seq data hdecode
    rw [hdecode, beq_iff_eq]
    constructor
    · rintro rfl
      exact ⟨seq, data, rfl⟩
    · rintro ⟨_, _, hsame⟩
      cases hsame
      rfl
  · rename_i hother
    refine iff_of_false Bool.false_ne_true ?_
    rintro ⟨seq, data, hdecode⟩
    exact hother channel seq data hdecode

theorem Begins.continues_eq (h : Begins c report) : continues channel report = false := by
  obtain ⟨command, length, data, hdecode⟩ := h
  rw [continues, hdecode]

theorem Begins.isOn_eq (h : Begins c report) : Dialogue.isOn channel report = (c == channel) := by
  obtain ⟨command, length, data, hdecode⟩ := h
  rw [Dialogue.isOn, hdecode]
  rfl

theorem isOn_of_continues (h : continues c report = true) :
    Dialogue.isOn channel report = (c == channel) := by
  obtain ⟨seq, data, hdecode⟩ := continues_iff.1 h
  rw [Dialogue.isOn, hdecode]
  rfl

theorem continues_eq_of_continues (h : continues c report = true) :
    continues channel report = (c == channel) := by
  obtain ⟨seq, data, hdecode⟩ := continues_iff.1 h
  rw [continues, hdecode]

namespace IsMessage

theorem octet (command : Command) (channel : ChannelId) (octet : UInt8) :
    IsMessage channel
      [Packet.encode Hid.reportSize (.initial channel command.toByte 1 [octet])] :=
  ⟨command, [octet], by
    rw [packetize_of_le (by rw [List.length_singleton]; decide),
      messageReports_of_le (by rw [List.length_singleton]; decide)]
    rfl⟩

theorem errorPacket (channel : ChannelId) (code : Hid.ErrorCode) :
    IsMessage channel [Hid.errorPacket channel code] :=
  octet .error channel code.toByte

theorem keepalive (channel : ChannelId) : IsMessage channel [Gateway.keepalive channel] :=
  octet .keepalive channel Hid.keepaliveProcessing

theorem answerReports (command : Command) (channel : ChannelId) (payload : Bytes) :
    IsMessage channel (Gateway.answerReports command channel payload) := by
  by_cases h : payload.length ≤ Hid.maxMessageSize
  · exact ⟨command, payload, by rw [answerReports_of_le h, packetize_of_le h]⟩
  · rw [answerReports_of_lt (Nat.lt_of_not_le h)]
    exact errorPacket channel .other

/-- The first report of a message begins it, and the others continue it. -/
theorem split (h : IsMessage channel reports) : ∃ first rest, reports = first :: rest ∧
    Begins channel first ∧ ∀ report ∈ rest, continues channel report = true := by
  obtain ⟨command, payload, hpackets⟩ := h
  obtain ⟨hsize, hfits, rfl⟩ := Hid.packetize_eq_ok.1 hpackets
  obtain ⟨first, rest, hcons, ⟨length, data, hfirst⟩, hrest⟩ :=
    Hid.Reader.packets_eq_cons hsize channel command.no_type_bit hfits
  exact ⟨first, rest, hcons, ⟨_, length, data, hfirst⟩, fun report hreport =>
    continues_iff.2 (hrest report hreport)⟩

theorem continues_of_append {said : List Bytes} (h : IsMessage channel (said ++ report :: rest))
    (hsaid : said ≠ []) : continues channel report = true := by
  obtain ⟨first, others, hsplit, -, hcontinues⟩ := h.split
  obtain ⟨r, said, rfl⟩ := List.exists_cons_of_ne_nil hsaid
  obtain ⟨rfl, rfl⟩ := List.cons.inj hsplit
  exact hcontinues report (by simp)

/-- The first report of a message tells how many follow. -/
theorem length_eq (h : IsMessage channel (first :: rest))
    (h' : IsMessage channel (first :: rest')) : rest.length = rest'.length := by
  obtain ⟨command, payload, hpackets⟩ := h
  obtain ⟨command', payload', hpackets'⟩ := h'
  obtain ⟨-, hfits, hcons⟩ := Hid.packetize_eq_ok.1 hpackets
  obtain ⟨-, hfits', hcons'⟩ := Hid.packetize_eq_ok.1 hpackets'
  rw [Hid.messagePackets, List.map_cons, List.cons.injEq] at hcons hcons'
  have hsame : payload.length = payload'.length := by
    have hfirst := Packet.decode_encode_initial Hid.reportSize channel command.no_type_bit
      (UInt16.ofNat payload.length) (payload.take (Hid.reportSize - Hid.initialHeaderSize))
    rw [← hcons.1, hcons'.1, Packet.decode_encode_initial _ _ command'.no_type_bit] at hfirst
    simp only [Except.ok.injEq, Packet.initial.injEq] at hfirst
    rw [← Hid.toNat_length hfits, ← hfirst.2.2.1, Hid.toNat_length hfits']
  rw [hcons.2, hcons'.2]
  simp only [List.length_map, Hid.length_continuations, Bytes.length_chunks, List.length_drop,
    hsame]

/-- Where two messages begin with the same reports, they are the same. -/
theorem append_inj {message message' : List Bytes} (h : IsMessage channel message)
    (h' : IsMessage channel message') (hsame : message ++ rest = message' ++ rest') :
    message = message' ∧ rest = rest' := by
  obtain ⟨first, others, rfl, -⟩ := h.split
  obtain ⟨first', others', rfl, -⟩ := h'.split
  obtain rfl : first = first' := (List.cons.inj hsame).1
  exact List.append_inj hsame (congrArg Nat.succ (h.length_eq h'))

end IsMessage

/-- What is left of a message is the whole of it, or else begins with a continuation. -/
theorem IsRest.cases (h : IsRest channel (report :: rest)) :
    (IsMessage channel (report :: rest) ∧ Begins channel report ∨
      continues channel report = true) ∧ ∀ r ∈ rest, continues channel r = true := by
  obtain ⟨message, hmessage, said, rfl⟩ := h
  obtain ⟨first, others, hsplit, hbegins, hcontinues⟩ := hmessage.split
  cases said with
  | nil =>
    cases hsplit
    exact ⟨.inl ⟨hmessage, hbegins⟩, hcontinues⟩
  | cons r said =>
    obtain ⟨rfl, rfl⟩ := List.cons.inj hsplit
    exact ⟨.inr (hcontinues report (by simp)), fun r hr => hcontinues r (by simp [hr])⟩

theorem IsRest.isOn_eq (h : IsRest c reports) (hreport : report ∈ reports) :
    Dialogue.isOn channel report = (c == channel) := by
  obtain ⟨message, hmessage, hsuffix⟩ := h
  obtain ⟨first, others, rfl, hbegins, hcontinues⟩ := hmessage.split
  rcases List.mem_cons.1 (hsuffix.subset hreport) with rfl | hother
  · exact hbegins.isOn_eq
  · exact isOn_of_continues (hcontinues report hother)

/-! ### Whole and torn messages -/

/-- Whether reports are whole messages on a channel, one after the other; the last one may be
under way. -/
def Whole (channel : ChannelId) (reports : List Bytes) : Prop :=
  ∃ messages : List (List Bytes), (∀ message ∈ messages, IsMessage channel message) ∧
    reports <+: messages.flatten

/-- Whether a report in the middle of a message on a channel begins another one there: of the
message, some reports have been `said` and others are `unsaid`. -/
def Torn (channel : ChannelId) (reports : List Bytes) : Prop :=
  ∃ (messages : List (List Bytes)) (said unsaid : List Bytes) (report : Bytes) (more : List Bytes),
    (∀ message ∈ messages, IsMessage channel message) ∧ IsMessage channel (said ++ unsaid) ∧
    said ≠ [] ∧ unsaid ≠ [] ∧ Begins channel report ∧
    reports = messages.flatten ++ (said ++ report :: more)

/-- **What is torn is not whole.** -/
theorem Torn.not_whole (h : Torn channel reports) : ¬ Whole channel reports := by
  obtain ⟨messages, said, unsaid, report, more, hmessages, hmessage, hsaid, hunsaid, hbegins,
    rfl⟩ := h
  rintro ⟨messages', hmessages', later, hflat⟩
  -- The messages before agree one by one with those that are whole.
  induction messages generalizing messages' with
  | nil =>
    rw [List.flatten_nil, List.nil_append, List.append_assoc] at hflat
    obtain ⟨first, said, rfl⟩ := List.exists_cons_of_ne_nil hsaid
    cases messages' with
    | nil => cases hflat
    | cons message messages' =>
      have hwhole := hmessages' message (List.mem_cons_self ..)
      obtain ⟨first', others, rfl, -, hcontinues⟩ := hwhole.split
      obtain rfl : first = first' := (List.cons.inj hflat).1
      have hlength : (said ++ unsaid).length = _ := hmessage.length_eq hwhole
      rw [List.length_append] at hlength
      rcases List.append_eq_append_iff.1 (List.cons.inj hflat).2 with
        ⟨part, rfl, hpart⟩ | ⟨part, rfl, -⟩
      · cases part with
        | nil =>
          rw [List.append_nil] at hlength
          exact hunsaid (List.length_eq_zero_iff.1 (by omega))
        | cons r part =>
          obtain rfl : report = r := (List.cons.inj hpart).1
          have := hcontinues report (by simp)
          rw [hbegins.continues_eq] at this
          cases this
      · rw [List.length_append] at hlength
        exact hunsaid (List.length_eq_zero_iff.1 (by omega))
  | cons message messages ih =>
    cases messages' with
    | nil =>
      obtain ⟨first, others, rfl, -⟩ := (hmessages message (List.mem_cons_self ..)).split
      cases hflat
    | cons message' messages' =>
      rw [List.flatten_cons, List.flatten_cons, List.append_assoc, List.append_assoc] at hflat
      obtain ⟨-, hrest⟩ := (hmessages message (List.mem_cons_self ..)).append_inj
        (hmessages' message' (List.mem_cons_self ..)) hflat
      exact ih (fun m hm => hmessages m (List.mem_cons_of_mem _ hm)) messages'
        (fun m hm => hmessages' m (List.mem_cons_of_mem _ hm)) (by rwa [List.append_assoc])

theorem Whole.take (h : Whole channel reports) {before : List Bytes}
    (hbefore : before <+: reports) : Whole channel before := by
  obtain ⟨messages, hmessages, hflat⟩ := h
  exact ⟨messages, hmessages, hbefore.trans hflat⟩

/-! ### What the listener replies -/

variable {δ : Type} {config : Config} {draws : List ChannelId} {now : Time} {table : ChannelTable}
  {l next : Listener} {r : Reaction}

/-- The channel of a report as an idle listener sees it; one that gathers a message sees that of the
message. -/
def Listener.channel? (l : Listener) (report : Bytes) : Option ChannelId :=
  match l with
  | idle =>
    match Packet.decode report with
    | .ok packet => some packet.channel
    | .error _ => none
  | gathering message _ => some message.channel
  | _ => none

/-- What follows from a report that is seen on a channel: what the listener is about, and the
request that is accepted. -/
inductive Listener.After (channel : Option ChannelId) : Listener → Option Accepted → Prop where
  | quiet : After channel idle none
  | replies {c : ChannelId} {reports : List Bytes} (on : channel = some c)
    (message : IsMessage c reports) : After channel (reply reports) none
  | gathers {m : Inbound} {deadline : Time} (on : channel = some m.channel) :
    After channel (gathering m deadline) none
  | accepts {a : Accepted} (on : channel = some a.channel) : After channel idle (some a)

/-- What follows from a message. -/
theorem respond_after {command : UInt8} {payload : Bytes}
    (h : respond config draws table channel command payload = some r) :
    Listener.After (some channel) (.reply r.reports) r.accepted := by
  have herror (code : Hid.ErrorCode) :
      Listener.After (some channel) (.reply (errorReports channel code)) none :=
    .replies rfl (.errorPacket channel code)
  have hanswer (command : Command) (payload : Bytes) :
      Listener.After (some channel) (.reply (answerReports command channel payload)) none :=
    .replies rfl (.answerReports command channel payload)
  rw [respond] at h
  split_ifs at h with hbroadcast
  · subst hbroadcast
    rw [welcomeNew] at h
    split_ifs at h
    · split at h <;> cases h
      exact hanswer ..
    · cases h
      exact herror _
  · cases h
    exact herror _
  · cases h
    exact herror _
  · split at h <;> cases h
    · rw [welcomeBack]
      split_ifs
      · exact hanswer ..
      · exact herror _
    · exact hanswer ..
    · rw [accept]
      split
      · exact herror _
      · exact .accepts rfl
    · exact .quiet
    · exact herror _

namespace Listener

/-- What follows from a report. -/
theorem hear_after (h : l.hear config draws now table report = some (next, r)) :
    After (l.channel? report) next r.accepted := by
  have hproceed {m : Inbound} {pushed : Except Link.Error (Hid.Reassembler × Option Bytes)}
      (h : proceed config draws now table m pushed = some (next, r)) :
      After (some m.channel) next r.accepted := by
    rcases proceed_next h with ⟨code, rfl, hidle⟩ | ⟨reassembler, -, hidle, rfl⟩ |
      ⟨payload, hrespond, rfl⟩
    · rw [hidle.2.2.2]
      exact .replies rfl (.errorPacket m.channel code)
    · rw [hidle.2.2.2]
      exact .gathers rfl
    · exact respond_after hrespond
  cases l with
  | idle =>
    rw [hear, begin] at h
    rw [channel?]
    split at h
    · cases h
      exact .quiet
    · rename_i hdecode
      cases h
      rw [hdecode]
      exact .replies rfl (.errorPacket _ .invalidSequence)
    · rename_i hdecode
      rw [hdecode]
      exact hproceed h
  | gathering message deadline => exact hproceed h
  | replying | stopped => cases h

end Listener

/-! ### What a sender has left to send -/

/-- What becomes of the reports that a sender has left to send, given whether one was delivered or
lost; the next message is on a channel. -/
inductive Utters (channel : ChannelId) (delivered undelivered : Prop) :
    List Bytes → List Bytes → Prop where
  | still {queue : List Bytes} (unsent : ¬ delivered) :
    Utters channel delivered undelivered queue queue
  | sent {report : Bytes} {rest : List Bytes} (sent : delivered) :
    Utters channel delivered undelivered (report :: rest) rest
  /-- One was lost, and the rest of its message is not tried. -/
  | lost {queue : List Bytes} (lost : undelivered) :
    Utters channel delivered undelivered queue []
  | began {message : List Bytes} (unsent : ¬ delivered) (whole : IsMessage channel message) :
    Utters channel delivered undelivered [] message

theorem Utters.isRest {delivered undelivered : Prop} {before after : List Bytes}
    (h : Utters channel delivered undelivered before after) (hbefore : IsRest c before) :
    IsRest c after ∨ IsRest channel after := by
  obtain ⟨message, hmessage, hsuffix⟩ := hbefore
  cases h with
  | still => exact .inl ⟨message, hmessage, hsuffix⟩
  | sent => exact .inl ⟨message, hmessage, (List.suffix_cons ..).trans hsuffix⟩
  | lost => exact .inl ⟨message, hmessage, List.nil_suffix⟩
  | began unsent whole => exact .inr ⟨_, whole, List.suffix_rfl⟩

theorem isRest_nil (channel : ChannelId) : IsRest channel [] :=
  ⟨_, .keepalive channel, List.nil_suffix⟩

namespace Dispatch

variable {table' : ChannelTable} {d d' : Dispatch δ} {e : Event δ}

/-- The reports of the message that a request is sending. -/
def queued (d : Dispatch δ) : List Bytes :=
  match d.stage with
  | .notifying _ report rest | .answering report rest => report :: rest
  | _ => []

theorem queued_of_isOver (h : System.isOver d = true) : d.queued = [] := by
  rw [System.isOver] at h
  split at h
  · rename_i hstage
    rw [queued, hstage]
  · cases h

theorem pendingReport?_eq_head? (d : Dispatch δ) : d.pendingReport? = d.queued.head? := by
  rw [pendingReport?, queued]
  cases d.stage <;> rfl

/-- What becomes of what a request has left to send. -/
theorem Turn.utters (h : d.Turn config now table e d' table') :
    Utters d.channel (∃ sender, e = .delivered sender) (∃ sender, e = .undelivered sender)
      d.queued d'.queued := by
  have hanswer {reports : List Bytes} (hnot : ¬ ∃ sender, e = .delivered sender)
      (hstage : d.queued = []) (hreports : reports = [] ∨ IsMessage d.channel reports) :
      Utters d.channel (∃ sender, e = .delivered sender) (∃ sender, e = .undelivered sender)
        d.queued (queued ({ d with stage := answer reports } : Dispatch δ)) := by
    have hqueued : queued ({ d with stage := answer reports } : Dispatch δ) = reports := by
      cases reports <;> rfl
    rw [hqueued, hstage]
    rcases hreports with rfl | hmessage
    · exact .still hnot
    · exact .began hnot hmessage
  have houtcome (outcome : Outcome) : outcome.reports d.channel = [] ∨
      IsMessage d.channel (outcome.reports d.channel) := by
    cases outcome with
    | response body => exact .inr (.answerReports ..)
    | timedOut => exact .inr (.errorPacket ..)
    | aborted reason =>
      cases reason with
      | cancel => exact .inr (.answerReports .cbor d.channel [statusCancelled])
      | resync => exact .inl rfl
  have hstop (outcome : Outcome) (relay : Relay δ) (hnot : ¬ ∃ sender, e = .delivered sender)
      (hstage : d.queued = []) :
      Utters d.channel (∃ sender, e = .delivered sender) (∃ sender, e = .undelivered sender)
        d.queued
        (queued ({ d with stage := stageAfter d.channel outcome relay } : Dispatch δ)) := by
    cases relay with
    | exchanging device =>
      rw [hstage]
      exact .still hnot
    | polling | resting wake => exact hanswer hnot hstage (houtcome outcome)
  cases h with
  | handed stage | unlisted stage | failed stage | rested stage =>
    rw [queued, stage]
    exact .still (by simp)
  | ticked stage =>
    rw [queued, stage]
    exact .began (by simp) (.keepalive d.channel)
  | @notified sender relay report rest stage =>
    have hqueued : queued ({ d with stage := notify relay rest } : Dispatch δ) = rest := by
      cases rest <;> rfl
    rw [hqueued, queued, stage]
    exact .sent ⟨sender, rfl⟩
  | @told sender report rest stage =>
    have hqueued : queued ({ d with stage := answer rest } : Dispatch δ) = rest := by
      cases rest <;> rfl
    rw [hqueued, queued, stage]
    exact .sent ⟨sender, rfl⟩
  | @unnotified sender _ _ _ stage | @untold sender _ _ stage => exact .lost ⟨sender, rfl⟩
  | answered stage => exact hanswer (by simp) (by rw [queued, stage]) (houtcome (.response _))
  | expired stage | aborted stage => exact hstop _ _ (by simp) (by rw [queued, stage])
  | gaveUp stage => exact hanswer (by simp) (by rw [queued, stage]) (houtcome _)

/-- What a request has left to send is the rest of a message on its channel, in every run. -/
theorem isRest_run {permits : System δ → Time × Event δ → Bool} {events : List (Time × Event δ)}
    {t : System δ} {id : DispatchId}
    (hrun : Machine.run? permits (System.fresh config) events = some t)
    (hd : t.dispatch? id = some d) : IsRest d.channel d.queued := by
  refine Books.forall_dispatch (P := fun d => IsRest d.channel d.queued)
    (fun _ _ _ => isRest_nil _) (fun {_ _ _ _ _ d d'} hd hturn => ?_) (fun signal d hd => ?_)
    hrun hd
  · rw [hturn.frame.2.1]
    exact or_self_iff.1 (hturn.utters.isRest hd)
  · obtain ⟨-, hchannel, -, -, hstage⟩ := System.told_frame signal d
    rwa [hchannel, queued, hstage]

end Dispatch

namespace System

variable {s t : System δ} {e : Event δ} {sender : Sender}

/-- The reports of the message that a sender is sending. -/
def queued (s : System δ) : Sender → List Bytes
  | .listener => s.listener.queued
  | .dispatch id => ((s.dispatch? id).map Dispatch.queued).getD []

theorem pendingReport?_eq_head? (s : System δ) (sender : Sender) :
    s.pendingReport? sender = (s.queued sender).head? := by
  cases sender with
  | listener =>
    rw [pendingReport?, queued]
    cases s.listener <;> rfl
  | dispatch id =>
    rw [pendingReport?, queued]
    rcases s.dispatch? id with _ | d
    · rfl
    · exact d.pendingReport?_eq_head?

/-- **What becomes of what a sender has left to send.** -/
theorem utters (hs : Books s) (h : s.step? now e = some t) (sender : Sender) :
    ∃ channel, Utters channel (e = .delivered sender) (e = .undelivered sender)
      (s.queued sender) (t.queued sender) := by
  have hother {sender : Sender} (hsame : t.queued sender = s.queued sender)
      (hunsent : e ≠ .delivered sender) : ∃ channel, Utters channel (e = .delivered sender)
        (e = .undelivered sender) (s.queued sender) (t.queued sender) :=
    ⟨0, hsame ▸ .still hunsent⟩
  cases sender with
  | listener =>
    rcases listener_cases h with ⟨⟨id, hid⟩, hsame⟩ | ⟨-, hbecomes⟩
    · refine hother (congrArg Listener.queued hsame) ?_
      rintro rfl
      cases hid
    · change ∃ channel, Utters channel _ _ s.listener.queued t.listener.queued
      generalize t.listener = next at hbecomes
      cases hbecomes with
      | @heard report draws next r hear =>
        rw [queued_of_heard h]
        have hafter := Listener.hear_after hear
        generalize r.accepted = accepted at hafter
        cases hafter with
        | quiet | gathers | accepts => exact ⟨0, .still (by simp)⟩
        | replies on message =>
          rw [Listener.queued_reply]
          exact ⟨_, .began (by simp) message⟩
      | gaveUp gathering =>
        rw [gathering, Listener.queued_reply]
        refine ⟨_, .began ?_ (.errorPacket ..)⟩
        rintro rfl
        rw [step?, gathering] at h
        cases h
      | stopped idle =>
        rw [idle]
        refine ⟨0, .still ?_⟩
        rintro rfl
        rw [step?, idle] at h
        cases h
      | sent replying =>
        rw [replying, Listener.queued_reply]
        exact ⟨0, .sent rfl⟩
      | lost replying => exact ⟨0, .lost rfl⟩
  | dispatch x =>
    rcases step_cases h with ⟨id, d, d', table, hid, hd, hturn, rfl⟩ | ⟨hnone, l, r, -, rfl⟩
    · by_cases hx : x = id
      · subst hx
        have hsent : (∃ sender, e = .delivered sender) ↔ e = .delivered (.dispatch x) := by
          refine ⟨?_, fun he => ⟨_, he⟩⟩
          rintro ⟨sender, rfl⟩
          cases sender <;> cases hid
          rfl
        have hlost : (∃ sender, e = .undelivered sender) ↔ e = .undelivered (.dispatch x) := by
          refine ⟨?_, fun he => ⟨_, he⟩⟩
          rintro ⟨sender, rfl⟩
          cases sender <;> cases hid
          rfl
        have hqueued : queued ({ s with table }.put d') (.dispatch x) = d'.queued := by
          rw [queued, dispatch?_turn hs.alive hd hturn, if_pos rfl]
          split_ifs with hover
          · exact (Dispatch.queued_of_isOver hover).symm
          · rfl
        have hutters := hturn.utters
        rw [hsent, hlost, ← hqueued] at hutters
        exact ⟨d.channel, by rwa [queued, hd]⟩
      · refine hother ?_ ?_
        · rw [queued, dispatch?_turn hs.alive hd hturn, if_neg hx, queued]
        · rintro rfl
          cases hid
          exact hx rfl
    · refine hother ?_ ?_
      · rw [queued, queued, dispatch?_react]
        rcases s.dispatch? x with _ | d
        · rw [Option.map_none, Option.none_or]
          generalize r.accepted.filter _ = accepted
          cases accepted <;> rfl
        · rw [Option.map_some, Option.some_or, Option.map_some, Dispatch.queued,
            (told_frame r.signal d).2.2.2.2]
          rfl
      · rintro rfl
        cases hnone

/-- Whether a sender is in the middle of a message on a channel: its next report continues one. -/
def inMiddle (s : System δ) (channel : ChannelId) (sender : Sender) : Bool :=
  (s.pendingReport? sender).any (continues channel)

theorem inMiddle_eq (s : System δ) (channel : ChannelId) (sender : Sender) :
    s.inMiddle channel sender = (s.queued sender).head?.any (continues channel) := by
  rw [inMiddle, pendingReport?_eq_head?]

/-- A sender gets into the middle of a message by sending a report. -/
theorem inMiddle_step (hs : Books s) (h : s.step? now e = some t) (hunsent : e ≠ .delivered sender)
    (hnot : s.inMiddle channel sender = false) : t.inMiddle channel sender = false := by
  rw [inMiddle_eq] at hnot ⊢
  obtain ⟨c, hutters⟩ := utters hs h sender
  generalize s.queued sender = before at hnot hutters
  generalize t.queued sender = after at hutters
  cases hutters with
  | still => exact hnot
  | sent sent => exact absurd sent hunsent
  | lost => rfl
  | began unsent whole =>
    obtain ⟨first, rest, rfl, hbegins, -⟩ := whole.split
    exact hbegins.continues_eq

/-- A sender that sends a report has the others left to send. -/
theorem queued_of_delivered (hs : Books s) (h : s.step? now (.delivered sender) = some t)
    (hpending : s.pendingReport? sender = some report) :
    s.queued sender = report :: t.queued sender := by
  rw [pendingReport?_eq_head?] at hpending
  obtain ⟨c, hutters⟩ := utters hs h sender
  generalize s.queued sender = before at hpending hutters
  generalize t.queued sender = after at hutters
  cases hutters with
  | still unsent | began unsent => exact absurd rfl unsent
  | sent =>
    cases hpending
    rfl
  | lost lost => cases lost

/-- A sender that neither sends nor loses a report goes on with its message. -/
theorem queued_of_silent (hs : Books s) (h : s.step? now e = some t)
    (hunsent : e ≠ .delivered sender) (hkept : e ≠ .undelivered sender)
    (hqueued : s.queued sender ≠ []) : t.queued sender = s.queued sender := by
  obtain ⟨c, hutters⟩ := utters hs h sender
  generalize s.queued sender = before at hqueued hutters ⊢
  generalize t.queued sender = after at hutters ⊢
  cases hutters with
  | still => rfl
  | sent sent => exact absurd sent hunsent
  | lost lost => exact absurd lost hkept
  | began => exact absurd rfl hqueued

/-- Whether whatever senders have left to send is the rest of a message. -/
def Rests (s : System δ) : Prop := ∀ sender, ∃ channel, IsRest channel (s.queued sender)

theorem Rests.step (hrests : s.Rests) (hs : Books s) (h : s.step? now e = some t) : t.Rests := by
  intro sender
  obtain ⟨c, hrest⟩ := hrests sender
  obtain ⟨c', hutters⟩ := utters hs h sender
  rcases hutters.isRest hrest with hrest | hrest
  · exact ⟨c, hrest⟩
  · exact ⟨c', hrest⟩

theorem Rests.fresh (config : Config) : (System.fresh config : System δ).Rests := by
  intro sender
  refine ⟨0, ?_⟩
  cases sender <;> exact isRest_nil 0

theorem Rests.run {permits : System δ → Time × Event δ → Bool} {events : List (Time × Event δ)}
    (hrun : Machine.run? permits (System.fresh config) events = some t) : t.Rests :=
  (Machine.run?_induction (P := fun s : System δ => Books s ∧ s.Rests)
    (fun _ _ _ hs _ hstep => ⟨hs.1.step hstep, hs.2.step hs.1 hstep⟩)
    ⟨Books.fresh config, Rests.fresh config⟩ hrun).2

end System

/-! ### What was sent on a channel -/

/-- How far the senders have got, after these reports were sent on a channel. -/
inductive Flow (channel : ChannelId) (s : System δ) : List Bytes → Prop where
  | between {messages : List (List Bytes)}
    (whole : ∀ message ∈ messages, IsMessage channel message)
    (nobody : ∀ sender, s.inMiddle channel sender = false) : Flow channel s messages.flatten
  /-- One sender is in the middle of a message, and nobody else is. -/
  | amid {messages : List (List Bytes)} {said unsaid : List Bytes} {sender : Sender}
    (whole : ∀ message ∈ messages, IsMessage channel message)
    (message : IsMessage channel (said ++ unsaid)) (begun : said ≠ []) (unfinished : unsaid ≠ [])
    (queued : s.queued sender = unsaid)
    (others : ∀ other, other ≠ sender → s.inMiddle channel other = false) :
    Flow channel s (messages.flatten ++ said)

namespace Flow

variable {s t : System δ} {e : Event δ} {sender : Sender} {sent : List Bytes}

/-- What was sent is whole messages. -/
theorem whole (h : Flow channel s sent) : Whole channel sent := by
  cases h with
  | between whole => exact ⟨_, whole, List.prefix_rfl⟩
  | @amid messages said unsaid sender whole message =>
    refine ⟨messages ++ [said ++ unsaid], ?_, ?_⟩
    · rintro m hm
      rcases List.mem_append.1 hm with hm | hm
      · exact whole m hm
      · obtain rfl := List.mem_singleton.1 hm
        exact message
    · rw [List.flatten_append, List.flatten_singleton]
      exact List.prefix_append_right_inj _ |>.2 (List.prefix_append ..)

/-- Nothing is sent unless a report is delivered. -/
theorem silent (hf : Flow channel s sent) (hs : Books s) (h : s.step? now e = some t)
    (hunsent : ∀ sender, e ≠ .delivered sender) (hkept : ∀ sender, e ≠ .undelivered sender) :
    Flow channel t sent := by
  have hstays (sender : Sender) (hnot : s.inMiddle channel sender = false) :=
    System.inMiddle_step hs h (hunsent sender) hnot
  cases hf with
  | between whole nobody => exact .between whole fun sender => hstays sender (nobody sender)
  | @amid messages said unsaid sender whole message begun unfinished queued others =>
    refine .amid whole message begun unfinished ?_ fun other hother =>
      hstays other (others other hother)
    rw [System.queued_of_silent hs h (hunsent sender) (hkept sender) (queued ▸ unfinished), queued]

theorem inMiddle_amid {said unsaid : List Bytes} (message : IsMessage channel (said ++ unsaid))
    (begun : said ≠ []) (unfinished : unsaid ≠ []) (queued : s.queued sender = unsaid) :
    s.inMiddle channel sender = true := by
  obtain ⟨report, rest, rfl⟩ := List.exists_cons_of_ne_nil unfinished
  rw [System.inMiddle_eq, queued]
  exact message.continues_of_append begun

/-- Every message is complete when nobody is in the middle of one. -/
theorem complete (h : Flow channel s sent)
    (hnobody : ∀ sender, s.inMiddle channel sender = false) :
    ∃ messages : List (List Bytes), (∀ message ∈ messages, IsMessage channel message) ∧
      sent = messages.flatten := by
  cases h with
  | between whole => exact ⟨_, whole, rfl⟩
  | amid whole message begun unfinished queued =>
    have := (inMiddle_amid message begun unfinished queued).symm.trans (hnobody _)
    exact absurd this (by decide)

private theorem deliver_on (hf : Flow channel s sent) (hs : Books s)
    (hrest : IsRest channel (s.queued sender)) (h : s.step? now (.delivered sender) = some t)
    (hqueued : s.queued sender = report :: t.queued sender)
    (hothers : ∀ other, other ≠ sender → s.inMiddle channel other = false) :
    Flow channel t (sent ++ [report]) := by
  have hstay (other : Sender) (hother : other ≠ sender) : t.inMiddle channel other = false :=
    System.inMiddle_step hs h (by simpa using Ne.symm hother) (hothers other hother)
  have hsaid {messages : List (List Bytes)} {said : List Bytes}
      (whole : ∀ message ∈ messages, IsMessage channel message)
      (message : IsMessage channel (said ++ report :: t.queued sender)) :
      Flow channel t (messages.flatten ++ said ++ [report]) := by
    rw [List.append_assoc]
    by_cases hlast : t.queued sender = []
    · rw [hlast] at message
      have hwhole : ∀ m ∈ messages ++ [said ++ [report]], IsMessage channel m :=
        List.forall_mem_append.2 ⟨whole, List.forall_mem_singleton.2 message⟩
      have hbetween := Flow.between (s := t) hwhole fun other => by
        by_cases hother : other = sender
        · rw [hother, System.inMiddle_eq, hlast]
          rfl
        · exact hstay other hother
      rwa [List.flatten_append, List.flatten_singleton] at hbetween
    · exact .amid whole (by rwa [List.append_assoc]) (by simp) hlast rfl hstay
  cases hf with
  | @between messages whole nobody =>
    -- The report begins a message.
    have hbegins := nobody sender
    rw [System.inMiddle_eq, hqueued] at hbegins
    rw [hqueued] at hrest
    rcases hrest.cases.1 with ⟨message, -⟩ | hcontinues
    · have := @hsaid messages [] whole message
      rwa [List.append_nil] at this
    · exact absurd (hcontinues.symm.trans hbegins) (by decide)
  | @amid messages said unsaid sender' whole message begun unfinished queued others =>
    by_cases hsender : sender' = sender
    · subst hsender
      exact hsaid whole (by rwa [← hqueued, queued])
    · have := (inMiddle_amid message begun unfinished queued).symm.trans (hothers sender' hsender)
      exact absurd this (by decide)

private theorem deliver_off (hf : Flow channel s sent) (hs : Books s)
    (hrest : IsRest c (s.queued sender)) (hc : c ≠ channel)
    (h : s.step? now (.delivered sender) = some t)
    (hqueued : s.queued sender = report :: t.queued sender) : Flow channel t sent := by
  have hoff : t.inMiddle channel sender = false := by
    rw [hqueued] at hrest
    rw [System.inMiddle_eq]
    cases hlater : t.queued sender with
    | nil => rfl
    | cons r rest =>
      have hoff : continues channel r = (c == channel) :=
        continues_eq_of_continues (hrest.cases.2 r (by simp [hlater]))
      rw [List.head?_cons, Option.any_some, hoff]
      exact beq_eq_false_iff_ne.2 hc
  have hstay (other : Sender) (hnot : other ≠ sender → s.inMiddle channel other = false) :
      t.inMiddle channel other = false := by
    by_cases hother : other = sender
    · exact hother ▸ hoff
    · exact System.inMiddle_step hs h (by simpa using Ne.symm hother) (hnot hother)
  cases hf with
  | between whole nobody => exact .between whole fun other => hstay other fun _ => nobody other
  | @amid messages said unsaid sender' whole message begun unfinished queued others =>
    have hsender : sender' ≠ sender := by
      rintro rfl
      have hon : IsRest channel (s.queued sender') := queued ▸ ⟨_, message, List.suffix_append ..⟩
      have hreport : report ∈ s.queued sender' := hqueued ▸ List.mem_cons_self ..
      have hsame : Dialogue.isOn channel report = _ := hrest.isOn_eq hreport
      rw [hon.isOn_eq hreport, beq_self_eq_true] at hsame
      exact hc (beq_iff_eq.1 hsame.symm)
    refine .amid whole message begun unfinished ?_ fun other hother => hstay other fun _ =>
      others other hother
    rw [System.queued_of_silent hs h (by simpa using Ne.symm hsender) (by simp)
      (queued ▸ unfinished), queued]

/-- **A report is sent**, and if it is on the channel, nobody else is in the middle of a message
there. -/
theorem deliver (hf : Flow channel s sent) (hs : Books s) (hrests : s.Rests)
    (h : s.step? now (.delivered sender) = some t)
    (hpending : s.pendingReport? sender = some report)
    (hothers : Dialogue.isOn channel report = true →
      ∀ other, other ≠ sender → s.inMiddle channel other = false) :
    Flow channel t (sent ++ [report].filter (Dialogue.isOn channel)) := by
  have hqueued := System.queued_of_delivered hs h hpending
  obtain ⟨c, hrest⟩ := hrests sender
  have hon : Dialogue.isOn channel report = (c == channel) :=
    hrest.isOn_eq (hqueued ▸ List.mem_cons_self ..)
  by_cases hc : c = channel
  · subst hc
    rw [beq_self_eq_true] at hon
    rw [List.filter_cons_of_pos hon, List.filter_nil]
    exact hf.deliver_on hs hrest h hqueued (hothers hon)
  · rw [beq_eq_false_iff_ne.2 hc] at hon
    rw [List.filter_cons_of_neg (by simp [hon]), List.filter_nil, List.append_nil]
    exact hf.deliver_off hs hrest hc h hqueued

/-- **A message is torn** by a report that is sent on the channel while somebody else is in the
middle of a message there. -/
theorem torn (hf : Flow channel s sent) (hrests : s.Rests)
    (hpending : s.pendingReport? sender = some report)
    (hon : Dialogue.isOn channel report = true) {other : Sender} (hother : other ≠ sender)
    (hmiddle : s.inMiddle channel other = true) (more : List Bytes) :
    Torn channel (sent ++ report :: more) := by
  cases hf with
  | between whole nobody => exact absurd (hmiddle.symm.trans (nobody other)) (by decide)
  | @amid messages said unsaid sender' whole message begun unfinished queued others =>
    have hsender : sender ≠ sender' := by
      rintro rfl
      exact absurd (hmiddle.symm.trans (others other hother)) (by decide)
    have hnot := others sender hsender
    rw [System.pendingReport?_eq_head?] at hpending
    obtain ⟨rest, hqueued⟩ := List.head?_eq_some_iff.1 hpending
    obtain ⟨c, hrest⟩ := hrests sender
    rw [hqueued] at hrest
    have hc : c = channel := by
      rw [hrest.isOn_eq (List.mem_cons_self ..)] at hon
      exact beq_iff_eq.1 hon
    subst hc
    rw [System.inMiddle_eq, hqueued] at hnot
    rcases hrest.cases.1 with ⟨-, hbegins⟩ | hcontinues
    · exact ⟨messages, said, unsaid, report, more, whole, message, begun, unfinished, hbegins,
        List.append_assoc ..⟩
    · exact absurd (hcontinues.symm.trans hnot) (by decide)

end Flow

end Ctap.Gateway
