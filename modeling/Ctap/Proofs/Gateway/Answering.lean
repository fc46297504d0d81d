import Ctap.Proofs.Gateway.Books
import Ctap.Proofs.Hid.Framing

/-!
# Every request is answered at most once

Whatever is sent for an accepted request is sent on its channel: any number of keepalives, and then
one message at most. This message is the response of the device, an error message if the response is
too long or the time was up, or the status of a cancelled request if the host sent CANCEL on the
channel. A request that is over has sent all of it, unless the pipe refused a report; nothing at all
is owed only to a request that INIT dropped.

All this is read off the record of a run: what was asked, answered, sent and lost, with the instants.
An account of a request goes through the run with it.

## Main definitions

* `Outcome.Told`: the messages that tell an outcome.
* `Abort.Heard`, `Warranted`: what calls for an outcome of a request.
* `Course`: what has been sent for a request.
* `Dispatch.unsaid`: what a request is about to send when it is no longer relayed.

## Main results

* `Account.turn`, `Account.listen`: how an event changes the account of a request.
* `System.answers_once`: every accepted request has taken its course, in every run.
-/

namespace Ctap.Gateway

open Hid (ChannelId Command ErrorCode Packet)

variable {δ : Type}

/-! ### What the reports are -/

@[simp] theorem sentBy_nil (id : DispatchId) : sentBy id [] = [] := rfl

theorem sentBy_append (id : DispatchId) (first more : List (Time × Happening)) :
    sentBy id (first ++ more) = sentBy id first ++ sentBy id more :=
  List.filterMap_append

/-- Nothing is sent for a request where nothing is recorded of it. -/
theorem sentBy_eq_nil {id : DispatchId} {trace : List (Time × Happening)}
    (h : ∀ x ∈ trace, x.2.subject? ≠ some id) : sentBy id trace = [] := by
  rw [sentBy, List.filterMap_eq_nil_iff]
  intro x hx
  have hother := h x hx
  split
  · rename_i now sender report
    rw [if_neg]
    rintro rfl
    exact hother rfl
  · rfl

/-- Whether a report belongs to a channel. -/
def OnChannel (channel : ChannelId) (report : Bytes) : Prop :=
  ∃ packet, Packet.decode report = .ok packet ∧ packet.channel = channel

/-- The reports of a message of any length that is allowed. -/
def messageReports (command : Command) (channel : ChannelId) (payload : Bytes) : List Bytes :=
  (Hid.messagePackets command.toByte channel payload Hid.reportSize).map
    (Packet.encode Hid.reportSize)

theorem packetize_of_le {command : Command} {channel : ChannelId} {payload : Bytes}
    (h : payload.length ≤ Hid.maxMessageSize) :
    Hid.packetize command channel payload Hid.reportSize =
      .ok (messageReports command channel payload) := by
  have hsize : ¬ Hid.reportSize ≤ Hid.initialHeaderSize := by decide
  have hfits : ¬ Hid.maxPayload Hid.reportSize < payload.length := Nat.not_lt.2 h
  rw [Hid.packetize, if_neg hsize, if_neg hfits]
  rfl

theorem answerReports_of_le {command : Command} {channel : ChannelId} {payload : Bytes}
    (h : payload.length ≤ Hid.maxMessageSize) :
    answerReports command channel payload = messageReports command channel payload := by
  rw [answerReports, packetize_of_le h]

theorem answerReports_of_lt {command : Command} {channel : ChannelId} {payload : Bytes}
    (h : Hid.maxMessageSize < payload.length) :
    answerReports command channel payload = [Hid.errorPacket channel .other] := by
  have hsize : ¬ Hid.reportSize ≤ Hid.initialHeaderSize := by decide
  have hlong : Hid.maxPayload Hid.reportSize < payload.length := h
  rw [answerReports, Hid.packetize, if_neg hsize, if_pos hlong]
  rfl

theorem onChannel_messageReports {command : Command} {channel : ChannelId} {payload : Bytes}
    (h : payload.length ≤ Hid.maxMessageSize) :
    ∀ report ∈ messageReports command channel payload, OnChannel channel report := by
  have hcommand : command.toByte &&& 0x80 = 0 := by cases command <;> rfl
  obtain ⟨first, rest, hpackets, ⟨_, _, hfirst⟩, hrest⟩ :=
    Hid.Reader.packets_eq_cons (show Hid.initialHeaderSize < Hid.reportSize by decide) channel
      hcommand h
  intro report hreport
  rw [messageReports, hpackets, List.mem_cons] at hreport
  rcases hreport with rfl | hreport
  · exact ⟨_, hfirst, rfl⟩
  · obtain ⟨_, _, hdecode⟩ := hrest report hreport
    exact ⟨_, hdecode, rfl⟩

theorem onChannel_errorPacket (channel : ChannelId) (code : ErrorCode) :
    OnChannel channel (Hid.errorPacket channel code) :=
  ⟨_, Packet.decode_encode_initial _ channel (by rfl) _ _, rfl⟩

theorem onChannel_keepalive (channel : ChannelId) : OnChannel channel (keepalive channel) :=
  ⟨_, Packet.decode_encode_initial _ channel (by rfl) _ _, rfl⟩

/-! ### What calls for an outcome -/

/-- Whether a message asks for a request to be given up. -/
def Abort.AskedBy (m : Asked) : Abort → Prop
  | .cancel => m.Is .cancel
  | .resync => m.Is .init ∧ m.payload.length = Hid.nonceSize

/-- Whether the host has asked for a request on a channel to be given up. -/
def Abort.Heard (reason : Abort) (channel : ChannelId) (trace : List (Time × Happening)) : Prop :=
  ∃ now m, (now, .asked m) ∈ trace ∧ m.channel = channel ∧ reason.AskedBy m

/-- The reports that tell the host an outcome. -/
inductive Outcome.Told (channel : ChannelId) : Outcome → List Bytes → Prop where
  | response {body : Bytes} (fits : body.length ≤ Hid.maxMessageSize) :
    Told channel (.response body) (messageReports .cbor channel body)
  | tooLong {body : Bytes} (long : Hid.maxMessageSize < body.length) :
    Told channel (.response body) [Hid.errorPacket channel .other]
  | timedOut : Told channel .timedOut [Hid.errorPacket channel .messageTimeout]
  | cancelled : Told channel (.aborted .cancel) (messageReports .cbor channel [0x2D])
  | dropped : Told channel (.aborted .resync) []

/-- **An outcome is told** by its reports. -/
theorem Outcome.told_reports (channel : ChannelId) (outcome : Outcome) :
    outcome.Told channel (outcome.reports channel) := by
  cases outcome with
  | response body =>
    rw [reports]
    by_cases hfits : body.length ≤ Hid.maxMessageSize
    · rw [answerReports_of_le hfits]
      exact .response hfits
    · rw [answerReports_of_lt (Nat.lt_of_not_le hfits)]
      exact .tooLong (Nat.lt_of_not_le hfits)
  | timedOut => exact .timedOut
  | aborted reason =>
    cases reason with
    | cancel =>
      rw [reports, answerReports_of_le (by decide)]
      exact .cancelled
    | resync => exact .dropped

/-- What the host is owed for a request that is no longer relayed, after what was recorded since its
acceptance at `start`. -/
inductive Warranted (config : Config) (start : Time) (a : Accepted)
    (heard : List (Time × Happening)) : List Bytes → Prop where
  | response {now : Time} {body : Bytes} (answered : (now, .answered a.id body) ∈ heard)
    (fits : body.length ≤ Hid.maxMessageSize) :
    Warranted config start a heard (messageReports .cbor a.channel body)
  /-- An error, since the response of the device is too long. -/
  | tooLong {now : Time} {body : Bytes} (answered : (now, .answered a.id body) ∈ heard)
    (long : Hid.maxMessageSize < body.length) :
    Warranted config start a heard [Hid.errorPacket a.channel .other]
  /-- An error, since no attempt succeeded in time. -/
  | timedOut {now : Time} (expired : (now, .expired a.id) ∈ heard)
    (late : start + config.requestTimeout ≤ now)
    (unanswered : ∀ now body, (now, .answered a.id body) ∉ heard) :
    Warranted config start a heard [Hid.errorPacket a.channel .messageTimeout]
  | cancelled (cancel : Abort.cancel.Heard a.channel heard) :
    Warranted config start a heard (messageReports .cbor a.channel [statusCancelled])
  | dropped (init : Abort.resync.Heard a.channel heard) : Warranted config start a heard []

/-- What has been sent for a request since its acceptance at `start`; `running` tells whether it is
not over. -/
inductive Course (config : Config) (start : Time) (a : Accepted) (running : Prop) :
    List (Time × Happening) → Prop where
  | relayed {after : List (Time × Happening)} {n : Nat}
    (keepalives : sentBy a.id after = List.replicate n (keepalive a.channel)) (runs : running) :
    Course config start a running after
  /-- Keepalives, and then the beginning of what it is owed. -/
  | answering {heard later : List (Time × Happening)} {n : Nat} {answer : List Bytes}
    (keepalives : sentBy a.id heard = List.replicate n (keepalive a.channel))
    (warranted : Warranted config start a heard answer)
    (begun : sentBy a.id later <+: answer) (runs : running) :
    Course config start a running (heard ++ later)
  | answered {heard later : List (Time × Happening)} {n : Nat}
    (keepalives : sentBy a.id heard = List.replicate n (keepalive a.channel))
    (warranted : Warranted config start a heard (sentBy a.id later)) (ended : ¬ running) :
    Course config start a running (heard ++ later)
  /-- Keepalives, and then what it is owed up to a report that was lost. -/
  | cutShort {heard later : List (Time × Happening)} {n : Nat} {now : Time} {report : Bytes}
    {rest : List Bytes} (keepalives : sentBy a.id heard = List.replicate n (keepalive a.channel))
    (warranted : Warranted config start a heard (sentBy a.id later ++ report :: rest))
    (lost : (now, .lost (.dispatch a.id) report) ∈ later) (ended : ¬ running) :
    Course config start a running (heard ++ later)

/-- Everything that a request is owed belongs to its channel. -/
theorem Warranted.onChannel {config : Config} {start : Time} {a : Accepted}
    {heard : List (Time × Happening)} {answer : List Bytes}
    (h : Warranted config start a heard answer) : ∀ report ∈ answer, OnChannel a.channel report := by
  cases h with
  | response answered fits => exact onChannel_messageReports fits
  | tooLong | timedOut =>
    intro report hreport
    obtain rfl := List.mem_singleton.1 hreport
    exact onChannel_errorPacket ..
  | cancelled => exact onChannel_messageReports (by decide)
  | dropped => simp

/-- Everything that is sent for a request belongs to its channel. -/
theorem Course.onChannel {config : Config} {start : Time} {a : Accepted} {running : Prop}
    {after : List (Time × Happening)} (h : Course config start a running after) :
    ∀ report ∈ sentBy a.id after, OnChannel a.channel report := by
  have hkeepalives {n : Nat} {trace : List (Time × Happening)}
      (keepalives : sentBy a.id trace = List.replicate n (keepalive a.channel)) :
      ∀ report ∈ sentBy a.id trace, OnChannel a.channel report := by
    rw [keepalives]
    intro report hreport
    rw [List.eq_of_mem_replicate hreport]
    exact onChannel_keepalive a.channel
  cases h with
  | relayed keepalives => exact hkeepalives keepalives
  | answering keepalives warranted begun =>
    rw [sentBy_append]
    exact List.forall_mem_append.2
      ⟨hkeepalives keepalives, fun report hreport => warranted.onChannel report (begun.subset hreport)⟩
  | answered keepalives warranted =>
    rw [sentBy_append]
    exact List.forall_mem_append.2 ⟨hkeepalives keepalives, warranted.onChannel⟩
  | cutShort keepalives warranted =>
    rw [sentBy_append]
    exact List.forall_mem_append.2 ⟨hkeepalives keepalives, fun report hreport =>
      warranted.onChannel report (List.mem_append_left _ hreport)⟩

theorem Abort.Heard.append {reason : Abort} {channel : ChannelId} {trace : List (Time × Happening)}
    (h : reason.Heard channel trace) (more : List (Time × Happening)) :
    reason.Heard channel (trace ++ more) := by
  obtain ⟨now, m, hm, hrest⟩ := h
  exact ⟨now, m, List.mem_append_left _ hm, hrest⟩

/-- An event that concerns no request leaves the requests there were, except for what it tells
them. -/
theorem System.dispatch?_listen {s : System δ} {now : Time} {e : Event δ} {l : Listener}
    {r : Reaction} (hturn : s.listener.Turn s.config now s.table e l r) {id : DispatchId}
    (hid : id < s.table.nextDispatch) :
    (s.react now l r).dispatch? id = (s.dispatch? id).map (told r.signal) := by
  have hnew : r.accepted.filter (·.id = id) = none := by
    cases hturn with
    | asked heard completes follows =>
      cases follows with
      | accepted is start =>
        have hnext := (Prod.mk.inj (ChannelTable.start_eq_some.1 start).2).1
        have hne : s.table.nextDispatch ≠ id := Nat.ne_of_gt hid
        simp [Option.filter, hnext, hne]
      | cancelled => rfl
      | resynced is nonce =>
        rw [welcomeBack, if_pos nonce]
        rfl
      | idle idle => rw [idle.2.2.2, Option.filter_none]
    | incomplete heard completes idle | other unheard idle => rw [idle.2.2.2, Option.filter_none]
  rw [dispatch?_react, hnew, Option.map_none, Option.or_none]

/-! ### The account of a request -/

/-- What a request that is no longer relayed has left to send. -/
def Dispatch.unsaid (d : Dispatch δ) : List Bytes :=
  match d.stage with
  | .cancelling _ outcome => outcome.reports d.channel
  | .answering report rest => report :: rest
  | _ => []

theorem Dispatch.unsaid_answer (d : Dispatch δ) (reports : List Bytes) :
    unsaid ({ d with stage := answer reports } : Dispatch δ) = reports := by
  cases reports <;> rfl

theorem Dispatch.unsaid_stageAfter (d : Dispatch δ) (outcome : Outcome) (relay : Relay δ) :
    unsaid ({ d with stage := stageAfter d.channel outcome relay } : Dispatch δ) =
      outcome.reports d.channel := by
  cases relay with
  | exchanging device => rfl
  | polling | resting wake => exact unsaid_answer d _

/-- The response of a device warrants the reports that tell it. -/
theorem Warranted.of_answered {config : Config} {start now : Time} {a : Accepted} {body : Bytes}
    {heard : List (Time × Happening)} (h : (now, .answered a.id body) ∈ heard) :
    Warranted config start a heard ((Outcome.response body).reports a.channel) := by
  have htold := Outcome.told_reports a.channel (.response body)
  generalize (Outcome.response body).reports a.channel = answer at htold
  cases htold with
  | response fits => exact .response h fits
  | tooLong long => exact .tooLong h long

/-- The reason for which a request is given up warrants the reports that tell it. -/
theorem Warranted.of_heard {config : Config} {start : Time} {a : Accepted} {reason : Abort}
    {heard : List (Time × Happening)} (h : reason.Heard a.channel heard) :
    Warranted config start a heard ((Outcome.aborted reason).reports a.channel) := by
  have htold := Outcome.told_reports a.channel (.aborted reason)
  generalize (Outcome.aborted reason).reports a.channel = answer at htold
  cases htold with
  | cancelled => exact .cancelled h
  | dropped => exact .dropped h

/-- What becomes of a request after its acceptance at `start`, as it is found now and with what was
recorded since. -/
inductive Account (config : Config) (start : Time) (a : Accepted) :
    List (Time × Happening) → Option (Dispatch δ) → Prop where
  /-- It is relayed, and only keepalives have been sent for it. -/
  | relayed {after : List (Time × Happening)} {d : Dispatch δ} {relay : Relay δ} {n : Nat}
    (stage : d.stage = .relaying relay ∨ d.stage = .notifying relay (keepalive a.channel) [])
    (deadline : d.deadline = start + config.requestTimeout)
    (keepalives : sentBy a.id after = List.replicate n (keepalive a.channel))
    (unanswered : ∀ now body, (now, .answered a.id body) ∉ after)
    (signal : ∀ reason, d.signal = some reason → reason.Heard a.channel after) :
    Account config start a after (some d)
  /-- It is no longer relayed, and what it is owed has been sent but for the rest. -/
  | answering {heard later : List (Time × Happening)} {d : Dispatch δ} {n : Nat}
    (stage : d.stage.relay? = none)
    (keepalives : sentBy a.id heard = List.replicate n (keepalive a.channel))
    (warranted : Warranted config start a heard (sentBy a.id later ++ d.unsaid)) :
    Account config start a (heard ++ later) (some d)
  | ended {after : List (Time × Happening)} (course : Course config start a False after) :
    Account config start a after none

namespace Account

variable {config : Config} {start : Time} {a : Accepted} {after : List (Time × Happening)}
  {o : Option (Dispatch δ)} {s : System δ} {now : Time} {e : Event δ}

theorem course (h : Account config start a after o) :
    Course config start a (o.isSome = true) after := by
  cases h with
  | relayed stage deadline keepalives => exact .relayed keepalives rfl
  | answering stage keepalives warranted =>
    exact .answering keepalives warranted (List.prefix_append ..) rfl
  | ended course => exact (propext (by simp) : (none.isSome = true) = False) ▸ course

/-- Whoever is no longer relayed is over once everything has been sent. -/
theorem settle {heard later : List (Time × Happening)} {d : Dispatch δ} {n : Nat}
    (stage : d.stage.relay? = none)
    (keepalives : sentBy a.id heard = List.replicate n (keepalive a.channel))
    (warranted : Warranted config start a heard (sentBy a.id later ++ d.unsaid)) :
    Account config start a (heard ++ later) (if System.isOver d then none else some d) := by
  cases h : System.isOver d with
  | false => exact .answering stage keepalives warranted
  | true =>
    have hunsaid : d.unsaid = [] := by
      rw [System.isOver] at h
      split at h
      · rename_i hstage
        rw [Dispatch.unsaid, hstage]
      · cases h
    rw [hunsaid, List.append_nil] at warranted
    exact .ended (.answered keepalives warranted id)

/-- What is recorded of others does not matter. -/
theorem frame {more : List (Time × Happening)} (h : Account config start a after o)
    (hother : ∀ x ∈ more, x.2.subject? ≠ some a.id) : Account config start a (after ++ more) o := by
  have hnone : sentBy a.id more = [] := sentBy_eq_nil hother
  have hsent (trace : List (Time × Happening)) :
      sentBy a.id (trace ++ more) = sentBy a.id trace := by
    rw [sentBy_append, hnone, List.append_nil]
  cases h with
  | relayed stage deadline keepalives unanswered signal =>
    refine .relayed stage deadline (by rw [hsent, keepalives]) (fun now body hmem => ?_)
      fun reason hreason => (signal reason hreason).append more
    rcases List.mem_append.1 hmem with hmem | hmem
    · exact unanswered now body hmem
    · exact hother _ hmem rfl
  | answering stage keepalives warranted =>
    rw [List.append_assoc]
    exact .answering stage keepalives (by rwa [hsent])
  | ended course =>
    refine .ended ?_
    cases course with
    | relayed keepalives runs => exact runs.elim
    | answering keepalives warranted begun runs => exact runs.elim
    | answered keepalives warranted ended =>
      rw [List.append_assoc]
      exact .answered keepalives (by rwa [hsent]) ended
    | cutShort keepalives warranted lost ended =>
      rw [List.append_assoc]
      exact .cutShort keepalives (by rwa [hsent]) (List.mem_append_left _ lost) ended

/-- A request that is told to be given up was meant by a message on its channel. -/
theorem told {signal : Option (DispatchId × Abort)} {d : Dispatch δ}
    (h : Account config start a after (some d))
    (hsignal : ∀ reason, (System.told signal d).signal = some reason →
      d.signal = some reason ∨ reason.Heard a.channel after) :
    Account config start a after (some (System.told signal d)) := by
  obtain ⟨hid, hchannel, -, hdeadline, hstage⟩ := System.told_frame signal d
  cases h with
  | relayed stage deadline keepalives unanswered heard =>
    exact .relayed (by rwa [hstage]) (by rw [hdeadline, deadline]) keepalives unanswered
      fun reason hreason => (hsignal reason hreason).elim (heard reason) id
  | answering stage keepalives warranted =>
    have hunsaid : (System.told signal d).unsaid = d.unsaid := by
      rw [Dispatch.unsaid, Dispatch.unsaid, hstage, hchannel]
    exact .answering (by rwa [hstage]) keepalives (by rwa [hunsaid])

private theorem stay {more : List (Time × Happening)} {d : Dispatch δ} {relay : Relay δ} {n : Nat}
    (stage : d.stage = .relaying relay ∨ d.stage = .notifying relay (keepalive a.channel) [])
    (deadline : d.deadline = start + config.requestTimeout)
    (keepalives : sentBy a.id after = List.replicate n (keepalive a.channel))
    (unanswered : ∀ now body, (now, .answered a.id body) ∉ after)
    (signal : ∀ reason, d.signal = some reason → reason.Heard a.channel after)
    (hmore : ∃ m, sentBy a.id more = List.replicate m (keepalive a.channel))
    (hnone : ∀ now body, (now, .answered a.id body) ∉ more) :
    Account config start a (after ++ more) (some d) := by
  obtain ⟨m, hmore⟩ := hmore
  refine .relayed (n := n + m) stage deadline ?_ (fun now body hmem => ?_) fun reason hreason =>
    (signal reason hreason).append more
  · rw [sentBy_append, keepalives, hmore, List.replicate_append_replicate]
  · exact (List.mem_append.1 hmem).elim (unanswered now body) (hnone now body)

private theorem stop {heard : List (Time × Happening)} {d : Dispatch δ} {n : Nat}
    (stage : d.stage.relay? = none)
    (keepalives : sentBy a.id heard = List.replicate n (keepalive a.channel))
    (warranted : Warranted config start a heard d.unsaid) :
    Account config start a heard (if System.isOver d then none else some d) := by
  have : Account config start a (heard ++ []) (if System.isOver d then none else some d) :=
    settle stage keepalives warranted
  rwa [List.append_nil] at this

/-- **An event that concerns a request goes into its account.** -/
theorem turn {d d' : Dispatch δ} {table : ChannelTable}
    (h : Account s.config start a after (some d)) (hd : s.dispatch? a.id = some d)
    (hchannel : d.channel = a.channel) (he : e.subject? = some a.id)
    (hturn : d.Turn s.config now s.table e d' table) :
    Account s.config start a (after ++ s.record (now, e))
      (if System.isOver d' then none else some d') := by
  cases h with
  | @relayed _ _ _ n stage deadline keepalives unanswered signal =>
    have hrelay : ∃ relay, d.stage.relay? = some relay := by
      rcases stage with hstage | hstage <;> exact ⟨_, by rw [hstage]; rfl⟩
    have hstop {heard : List (Time × Happening)} (h : sentBy a.id heard = []) :
        sentBy a.id (after ++ heard) = List.replicate n (keepalive a.channel) := by
      rw [sentBy_append, h, List.append_nil, keepalives]
    cases hturn with
    | handed hstage first =>
      cases he
      refine stay (.inl rfl) deadline keepalives unanswered signal ⟨0, ?_⟩ ?_ <;>
        simp [System.record, System.happenings, first, hd, sentBy]
    | @unlisted _ listed hstage none =>
      cases he
      have hrecord : s.record (now, .enumerated a.id listed) = [] := by
        rcases listed with cause | devices
        · rfl
        · simp [System.record, System.happenings, none devices rfl]
      rw [hrecord]
      exact stay (.inl rfl) deadline keepalives unanswered signal ⟨0, rfl⟩ (by simp)
    | failed hstage | rested hstage due =>
      exact stay (.inl rfl) deadline keepalives unanswered signal ⟨0, rfl⟩
        (by simp [System.record, System.happenings])
    | ticked hstage due =>
      exact stay (.inr (by rw [hchannel])) deadline keepalives unanswered signal ⟨0, rfl⟩
        (by simp [System.record, System.happenings])
    | @notified sender _ _ _ hstage =>
      cases sender <;> cases he
      rcases stage with hother | hsame
      · rw [hstage] at hother
        cases hother
      · rw [hstage] at hsame
        cases hsame
        refine stay (.inl rfl) deadline keepalives unanswered signal ⟨1, ?_⟩ ?_ <;>
          simp [System.record, System.happenings, System.pendingReport?, Dispatch.pendingReport?,
            hd, hstage, sentBy]
    | @unnotified sender _ _ _ hstage =>
      cases sender <;> cases he
      refine stay (.inl rfl) deadline keepalives unanswered signal ⟨0, ?_⟩ ?_ <;>
        simp [System.record, System.happenings, System.pendingReport?, Dispatch.pendingReport?,
          hd, hstage, sentBy]
    | answered hstage =>
      cases he
      refine stop (Dispatch.relay?_answer _) (hstop rfl) ?_
      rw [Dispatch.unsaid_answer, hchannel]
      exact .of_answered (List.mem_append_right _ (List.mem_singleton_self _))
    | expired hstage due =>
      cases he
      refine stop (Dispatch.relay?_stageAfter ..) (hstop rfl) ?_
      rw [Dispatch.unsaid_stageAfter, hchannel]
      refine .timedOut (List.mem_append_right _ (List.mem_singleton_self _)) (deadline ▸ due)
        fun now body hmem => ?_
      rcases List.mem_append.1 hmem with hmem | hmem
      · exact unanswered now body hmem
      · cases List.mem_singleton.1 hmem
    -- The signal was set when the host was heard, so the account holds what warrants the outcome.
    | aborted hstage hsignal =>
      refine stop (Dispatch.relay?_stageAfter ..) (hstop rfl) ?_
      rw [Dispatch.unsaid_stageAfter, hchannel]
      exact .of_heard ((signal _ hsignal).append _)
    | gaveUp hstage | told hstage | untold hstage =>
      obtain ⟨relay, hrelay⟩ := hrelay
      rw [hstage] at hrelay
      cases hrelay
  | @answering heard later _ _ stage keepalives warranted =>
    rw [List.append_assoc]
    cases hturn with
    | gaveUp hstage =>
      refine settle (Dispatch.relay?_answer _) keepalives ?_
      rw [Dispatch.unsaid, hstage] at warranted
      rw [Dispatch.unsaid_answer]
      simpa [System.record, System.happenings] using warranted
    | @told sender report rest hstage =>
      cases sender <;> cases he
      refine settle (Dispatch.relay?_answer _) keepalives ?_
      rw [Dispatch.unsaid, hstage] at warranted
      rw [Dispatch.unsaid_answer]
      simpa [System.record, System.happenings, System.pendingReport?, Dispatch.pendingReport?,
        hd, hstage, sentBy] using warranted
    | @untold sender report rest hstage =>
      cases sender <;> cases he
      rw [Dispatch.unsaid, hstage] at warranted
      have hrecord : s.record (now, .undelivered (.dispatch a.id)) =
          [(now, .lost (.dispatch a.id) report)] := by
        simp [System.record, System.happenings, System.pendingReport?, Dispatch.pendingReport?,
          hd, hstage]
      have hsent : sentBy a.id (later ++ [(now, .lost (.dispatch a.id) report)]) =
          sentBy a.id later := by
        rw [sentBy_append]
        exact List.append_nil _
      rw [hrecord]
      exact .ended (.cutShort keepalives (hsent.symm ▸ warranted)
        (List.mem_append_right _ (List.mem_singleton_self _)) id)
    -- The relay has stopped, so none of the events of a relayed request can come.
    | handed hstage | unlisted hstage | failed hstage | rested hstage | ticked hstage
    | notified hstage | unnotified hstage | answered hstage | expired hstage | aborted hstage =>
      rw [hstage] at stage
      cases stage

/-- Giving up the request in flight on the channel of a message tells only a request of this channel
to be given up. -/
private theorem abort (hs : Books s) (reason : Abort) {m : Asked} {d : Dispatch δ}
    (hd : s.dispatch? a.id = some d) (hchannel : d.channel = a.channel)
    (hm : (now, .asked m) ∈ after) (hasked : reason.AskedBy m) {other : Abort}
    (hother : (System.told ((s.table.abort m.channel reason).1.map (·, reason)) d).signal =
      some other) : d.signal = some other ∨ other.Heard a.channel after := by
  rw [ChannelTable.abort_fst, Dispatch.signal_told] at hother
  split_ifs at hother with hmeant
  · cases hother
    rw [System.id_of_dispatch? hd] at hmeant
    exact .inr ⟨now, m, hm, (hs.channel_eq hmeant hd).symm.trans hchannel, hasked⟩
  · exact .inl hother

/-- **An event that concerns no request goes into every account.** -/
theorem listen (hs : Books s) {l : Listener} {r : Reaction}
    (h : Account s.config start a after (s.dispatch? a.id)) (ha : a.id < s.table.nextDispatch)
    (hchannel : ∀ d, s.dispatch? a.id = some d → d.channel = a.channel) (he : e.subject? = none)
    (hturn : s.listener.Turn s.config now s.table e l r) :
    Account s.config start a (after ++ s.record (now, e)) ((s.react now l r).dispatch? a.id) := by
  have hframe : Account s.config start a (after ++ s.record (now, e)) (s.dispatch? a.id) := by
    refine h.frame fun x hx => ?_
    obtain ⟨y, hy, rfl⟩ := List.mem_map.1 hx
    rw [System.subject?_of_happening hy, he]
    simp
  rw [System.dispatch?_listen hturn ha]
  rcases hd : s.dispatch? a.id with _ | d
  · rwa [hd] at hframe
  · rw [hd] at hframe
    refine hframe.told fun reason hreason => ?_
    have hquiet (hsignal : r.signal = none) : d.signal = some reason := by
      rw [hsignal] at hreason
      exact hreason
    cases hturn with
    | @asked report draws m _ heard completes follows =>
      have hm : (now, .asked m) ∈ after ++ s.record (now, .heard report draws) := by
        simp [System.record, System.happenings, completes]
      cases follows with
      | accepted => exact .inl (hquiet rfl)
      | cancelled is => exact abort hs .cancel hd (hchannel d hd) hm is hreason
      | resynced is nonce =>
        rw [welcomeBack, if_pos nonce] at hreason
        exact abort hs .resync hd (hchannel d hd) hm ⟨is, nonce⟩ hreason
      | idle idle => exact .inl (hquiet idle.2.2.1)
    | incomplete heard completes idle | other unheard idle => exact .inl (hquiet idle.2.2.1)

end Account

/-! ### The accounts of all requests -/

namespace System

variable {s t : System δ} {now : Time} {e : Event δ}

/-- The record of a request that is accepted. -/
theorem accepts {start : Time} {a : Accepted} (h : s.step? now e = some t)
    (ha : (start, .accepted a) ∈ s.record (now, e)) : start = now ∧ ∃ l m next,
      s.record (now, e) = [(now, .asked m), (now, .accepted a)] ∧
      s.table.start a.channel = some (a.id, next) ∧ t = s.react now l ⟨next, [], none, some a⟩ := by
  obtain ⟨x, hx, hpair⟩ := List.mem_map.1 ha
  cases hpair
  refine ⟨rfl, ?_⟩
  have hsubject := subject?_of_happening hx
  rcases step_cases h with ⟨id, -, -, -, he, -⟩ | ⟨-, l, r, hturn, rfl⟩
  · rw [he] at hsubject
    cases hsubject
  · cases hturn with
    | @asked report draws m _ heard completes follows =>
      have hrecord : s.record (now, .heard report draws) =
          (now, .asked m) :: r.accepted.toList.map fun a => (now, .accepted a) := by
        simp [record, happenings, completes, heard]
      rw [hrecord] at ha
      have hmem : a ∈ r.accepted := by simpa using ha
      cases follows with
      | accepted is start =>
        cases hmem
        exact ⟨_, m, _, hrecord, start, rfl⟩
      | cancelled => cases hmem
      | resynced is nonce =>
        rw [welcomeBack, if_pos nonce] at hmem
        cases hmem
      | idle idle =>
        rw [idle.2.2.2] at hmem
        cases hmem
    | incomplete heard completes idle =>
      simp [record, happenings, completes, heard, idle.2.2.2] at ha
    | other unheard idle =>
      cases e with
      | heard report draws => exact absurd rfl (unheard report draws)
      | delivered sender | undelivered sender =>
        obtain ⟨_, -, hother⟩ := List.mem_map.1 hx
        cases hother
      | missed | failed | shutdown => cases hx
      | _ => cases hsubject

/-- What is handed to a device is the request as it was found. -/
theorem found_of_tried {x : Time} {id : DispatchId} {request : Bytes}
    (h : (x, .tried id request) ∈ s.record (now, e)) :
    ∃ d, s.dispatch? id = some d ∧ d.request = request := by
  obtain ⟨y, hy, hpair⟩ := List.mem_map.1 h
  cases hpair
  have hsubject := subject?_of_happening hy
  cases e with
  | enumerated id' listed =>
    rcases listed with _ | devices
    · cases hy
    · simp only [happenings] at hy
      split_ifs at hy
      · obtain ⟨d, hd, htried⟩ := List.mem_map.1 hy
        cases htried
        exact ⟨d, by simpa using hd, rfl⟩
      · cases hy
  | answered id' result =>
    rcases result with _ | body
    · cases hy
    · cases List.mem_singleton.1 hy
  | expired id' => cases List.mem_singleton.1 hy
  | delivered sender | undelivered sender =>
    obtain ⟨_, -, hother⟩ := List.mem_map.1 hy
    cases hother
  | heard | missed | failed | shutdown => cases hsubject
  | rested | aborted | ticked | deviceCancelled => cases hy

theorem config_step (h : s.step? now e = some t) : t.config = s.config := by
  rcases step_cases h with ⟨-, -, -, -, -, -, -, rfl⟩ | ⟨-, -, -, -, rfl⟩ <;> rfl

/-- Numbers are given out in order. -/
theorem nextDispatch_le (h : s.step? now e = some t) :
    s.table.nextDispatch ≤ t.table.nextDispatch := by
  rcases step_cases h with ⟨id, d, d', table, -, -, hturn, rfl⟩ | ⟨-, l, r, hturn, rfl⟩
  · change _ ≤ table.nextDispatch
    rcases hturn.relayed with ⟨rfl, -⟩ | ⟨rfl, -⟩
    · exact Nat.le_refl _
    · exact Nat.le_of_eq (ChannelTable.nextDispatch_finish ..).symm
  · change _ ≤ r.table.nextDispatch
    cases hturn with
    | asked heard completes follows =>
      cases follows with
      | accepted is start =>
        obtain ⟨-, hnext⟩ := Prod.mk.inj (ChannelTable.start_eq_some.1 start).2
        rw [hnext]
        exact Nat.le_succ _
      | cancelled => exact Nat.le_of_eq (ChannelTable.nextDispatch_abort ..).symm
      | resynced is nonce =>
        rw [welcomeBack, if_pos nonce]
        exact Nat.le_of_eq (ChannelTable.nextDispatch_abort ..).symm
      | idle idle => exact Nat.le_of_eq idle.2.1.symm
    | incomplete heard completes idle | other unheard idle => exact Nat.le_of_eq idle.2.1.symm

end System

/-- Whether a request is the one that was accepted, if it is not over. -/
def Accepted.Kept (a : Accepted) (s : System δ) : Prop :=
  ∀ d, s.dispatch? a.id = some d → d.channel = a.channel ∧ d.request = a.request

/-- What is known of a gateway that has served for a while. -/
structure Accounts (config : Config) (s : System δ) (trace : List (Time × Happening)) : Prop where
  books : Books s
  settings : s.config = config
  /-- What is recorded of requests is recorded of those that were accepted. -/
  numbered : ∀ x ∈ trace, ∀ id, x.2.subject? = some id → id < s.table.nextDispatch
  accounts : ∀ before start a after, trace = before ++ (start, .accepted a) :: after →
    a.id < s.table.nextDispatch ∧ sentBy a.id before = [] ∧ a.Kept s ∧
      (∀ now request, (now, .tried a.id request) ∈ after → request = a.request) ∧
      Account config start a after (s.dispatch? a.id)

namespace Accounts

variable {config : Config} {s t : System δ} {trace : List (Time × Happening)} {now : Time}
  {e : Event δ}

theorem fresh (config : Config) : Accounts config (System.fresh config : System δ) [] where
  books := .fresh config
  settings := rfl
  numbered := by simp
  accounts := by simp

private theorem keep (hs : Accounts config s trace) (h : s.step? now e = some t) {start : Time}
    {a : Accepted} {after : List (Time × Happening)} (ha : a.id < s.table.nextDispatch)
    (hkept : a.Kept s)
    (htried : ∀ now request, (now, .tried a.id request) ∈ after → request = a.request)
    (haccount : Account config start a after (s.dispatch? a.id)) :
    a.Kept t ∧
      (∀ x request, (x, .tried a.id request) ∈ after ++ s.record (now, e) → request = a.request) ∧
      Account config start a (after ++ s.record (now, e)) (t.dispatch? a.id) := by
  have hconfig := hs.settings
  subst hconfig
  have htried' : ∀ x request, (x, .tried a.id request) ∈ after ++ s.record (now, e) →
      request = a.request := by
    intro x request hx
    rcases List.mem_append.1 hx with hx | hx
    · exact htried x request hx
    · obtain ⟨d, hd, rfl⟩ := System.found_of_tried hx
      exact (hkept d hd).2
  rcases System.step_cases h with ⟨id, d, d', table, he, hd, hturn, rfl⟩ | ⟨he, l, r, hturn, rfl⟩
  · obtain ⟨-, hchannel, hrequest, -⟩ := hturn.frame
    rw [Accepted.Kept, System.dispatch?_turn hs.books.alive hd hturn]
    by_cases haid : a.id = id
    · subst haid
      rw [hd] at haccount
      rw [if_pos rfl]
      refine ⟨fun x hx => ?_, htried', haccount.turn hd (hkept d hd).1 he hturn⟩
      split_ifs at hx
      cases hx
      exact ⟨hchannel.trans (hkept d hd).1, hrequest.trans (hkept d hd).2⟩
    · rw [if_neg haid]
      refine ⟨hkept, htried', haccount.frame fun x hx => ?_⟩
      obtain ⟨y, hy, rfl⟩ := List.mem_map.1 hx
      rw [System.subject?_of_happening hy, he]
      simpa using Ne.symm haid
  · refine ⟨fun d hd => ?_, htried',
      haccount.listen hs.books ha (fun d hd => (hkept d hd).1) he hturn⟩
    rw [System.dispatch?_listen hturn ha] at hd
    obtain ⟨d₀, hd₀, rfl⟩ := Option.map_eq_some_iff.1 hd
    obtain ⟨-, hchannel, hrequest, -⟩ := System.told_frame r.signal d₀
    exact ⟨hchannel.trans (hkept d₀ hd₀).1, hrequest.trans (hkept d₀ hd₀).2⟩

private theorem opened (hs : Accounts config s trace) (h : s.step? now e = some t) {start : Time}
    {a : Accepted} (pre : List (Time × Happening)) {after : List (Time × Happening)}
    (hrecord : s.record (now, e) = pre ++ (start, .accepted a) :: after) :
    a.id < t.table.nextDispatch ∧ sentBy a.id (trace ++ pre) = [] ∧ a.Kept t ∧
      (∀ now request, (now, .tried a.id request) ∈ after → request = a.request) ∧
      Account config start a after (t.dispatch? a.id) := by
  have hconfig := hs.settings
  subst hconfig
  have hmem : (start, Happening.accepted a) ∈ s.record (now, e) := by simp [hrecord]
  obtain ⟨rfl, l, m, next, hboth, hstart, rfl⟩ := System.accepts h hmem
  obtain ⟨hid, hnext⟩ := Prod.mk.inj (ChannelTable.start_eq_some.1 hstart).2
  have hsplit : pre = [(start, .asked m)] ∧ after = [] := by
    rw [hboth] at hrecord
    rcases pre with _ | ⟨x, _ | ⟨y, pre⟩⟩ <;> simp at hrecord
    exact ⟨by rw [hrecord.1], hrecord.2⟩
  obtain ⟨rfl, rfl⟩ := hsplit
  have hfind : (s.react start l ⟨next, [], none, some a⟩).dispatch? a.id =
      some (Dispatch.start s.config start a) := by
    rw [System.dispatch?_react, hid, hs.books.dispatch?_nextDispatch, ← hid]
    simp [Option.filter]
  refine ⟨?_, ?_, ?_, by simp, ?_⟩
  · change a.id < next.nextDispatch
    rw [hnext, hid]
    exact Nat.lt_succ_self _
  · refine sentBy_eq_nil fun x hx hsubject => ?_
    rcases List.mem_append.1 hx with hx | hx
    · exact Nat.lt_irrefl _ (hid ▸ hs.numbered x hx a.id hsubject)
    · obtain rfl := List.mem_singleton.1 hx
      cases hsubject
  · intro d hd
    rw [hfind] at hd
    cases hd
    exact ⟨rfl, rfl⟩
  · rw [hfind]
    exact .relayed (n := 0) (.inl rfl) rfl rfl (by simp) (by simp [Dispatch.start])

/-- **Every event keeps the accounts.** -/
theorem step (hs : Accounts config s trace) (h : s.step? now e = some t) :
    Accounts config t (trace ++ s.record (now, e)) := by
  have hle := System.nextDispatch_le h
  have hnumbered : ∀ x ∈ trace ++ s.record (now, e), ∀ id, x.2.subject? = some id →
      id < t.table.nextDispatch := by
    intro x hx id hid
    refine Nat.lt_of_lt_of_le ?_ hle
    rcases List.mem_append.1 hx with hx | hx
    · exact hs.numbered x hx id hid
    · obtain ⟨y, hy, rfl⟩ := List.mem_map.1 hx
      rw [System.subject?_of_happening hy] at hid
      rcases System.step_cases h with ⟨id', d, -, -, he, hd, -⟩ | ⟨he, -⟩
      · rw [he] at hid
        cases hid
        exact hs.books.numbered _ d hd
      · rw [he] at hid
        cases hid
  refine ⟨hs.books.step h, (System.config_step h).trans hs.settings, hnumbered, ?_⟩
  intro before start a after htrace
  rcases List.append_eq_append_iff.1 htrace with ⟨pre, rfl, hrecord⟩ | ⟨post, hold, hafter⟩
  · exact hs.opened h pre hrecord
  · rcases post with _ | ⟨x, post⟩
    · have := hs.opened h [] hafter.symm
      rwa [hold, List.append_nil, List.append_nil] at *
    · rw [List.cons_append, List.cons.injEq] at hafter
      obtain ⟨rfl, rfl⟩ := hafter
      obtain ⟨ha, hbefore, hkept, htried, haccount⟩ := hs.accounts before start a post hold
      exact ⟨Nat.lt_of_lt_of_le ha hle, hbefore, hs.keep h ha hkept htried haccount⟩

end Accounts

namespace System

/-- **Every accepted request is answered at most once.** Nothing has been sent for it before its
acceptance. Since then its channel has got keepalives, and then nothing but what the request is
owed, in full if it is over and no report was lost. -/
theorem answers_once {config : Config} {events : List (Time × Event δ)} {t : System δ}
    (hrun : Machine.run? Machine.free (fresh config) events = some t)
    {before after : List (Time × Happening)} {start : Time} {a : Accepted}
    (htrace : Machine.observe record (fresh config) events =
      before ++ (start, .accepted a) :: after) :
    sentBy a.id before = [] ∧ (∀ report ∈ sentBy a.id after, OnChannel a.channel report) ∧
      Course config start a ((t.dispatch? a.id).isSome = true) after := by
  have hall : Accounts config t (Machine.observe record (fresh config) events) :=
    Machine.run?_induction_observe (fun _ _ _ _ hs _ hstep => hs.step hstep)
      (Accounts.fresh config) hrun
  obtain ⟨-, hbefore, -, -, haccount⟩ := hall.accounts before start a after htrace
  exact ⟨hbefore, haccount.course.onChannel, haccount.course⟩

/-- A request on channel 5 is accepted; its device answers after a keepalive. -/
def answeredRun : List (Time × Event Unit) :=
  [(0, .heard (Packet.encode Hid.reportSize (.initial 5 Command.cbor.toByte 1 [4])) []),
    (0, .enumerated 0 (.ok (.ofList [()]))), (100, .ticked 0), (100, .delivered (.dispatch 0)),
    (150, .answered 0 (.ok [0])), (150, .delivered (.dispatch 0))]

/-- The record of a request that was answered after a keepalive. -/
theorem answers_once_after_keepalive : ∃ t,
    Machine.run? Machine.free (fresh .standard) answeredRun = some t ∧ t.dispatch? 0 = none ∧
    sentBy 0 (Machine.observe record (fresh .standard) answeredRun) =
      keepalive 5 :: messageReports .cbor 5 [0] ∧
    Course .standard 0 ⟨0, 5, [4]⟩ ((t.dispatch? 0).isSome = true)
      ((Machine.observe record (fresh .standard) answeredRun).drop 2) := by
  have hrun : Machine.run? Machine.free (fresh .standard) answeredRun = some _ := rfl
  have htrace : Machine.observe record (fresh .standard) answeredRun =
      [(0, .asked ⟨5, Command.cbor.toByte, [4]⟩)] ++ (0, .accepted ⟨0, 5, [4]⟩) :: _ := rfl
  exact ⟨_, hrun, rfl, rfl, (answers_once hrun htrace).2.2⟩

end System

end Ctap.Gateway
