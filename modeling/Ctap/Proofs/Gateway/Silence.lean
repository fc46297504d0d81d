import Ctap.Proofs.Gateway.Answering

/-!
# What INIT silences

INIT on a channel frees it at once, and the request in flight on it is told to be given up. The
request is silent from then on, except for keepalives, if it is still being relayed and notices what
it was told. But a request that has stopped being relayed is told nothing: whatever it has left to
say, it says after the answer to INIT, and on a channel that may have its next request by then.

## Main definitions

* `TellsOutcome`: reports that belong to the outcome of a request.
* `System.noticed`: the rule that a request which was dropped notices it.
* `Dropped`: a request that has nothing to say any more.

## Main results

* `Dropped.step`: a request with nothing to say stays so.
* `System.silent_iff_nothing_unsaid`: what INIT silences, and that the channel is free.
-/

namespace Ctap.Gateway

open Hid (ChannelId Command Packet)

variable {δ : Type}

/-! ### Reports that tell an outcome -/

/-- Whether a report belongs to the outcome of a request on a channel: it begins a CBOR or error
message, or it continues a message. -/
def TellsOutcome (channel : ChannelId) (report : Bytes) : Prop :=
  ∃ packet, Packet.decode report = .ok packet ∧ packet.channel = channel ∧
    ∀ c command length data, packet = .initial c command length data →
      command = Command.cbor.toByte ∨ command = Command.error.toByte

theorem tellsOutcome_errorPacket (channel : ChannelId) (code : Hid.ErrorCode) :
    TellsOutcome channel (Hid.errorPacket channel code) :=
  ⟨_, Packet.decode_encode_initial _ channel (by rfl) _ _, rfl, fun _ _ _ _ h => by
    cases h
    exact .inr rfl⟩

theorem tellsOutcome_answerReports (channel : ChannelId) (payload : Bytes) :
    ∀ report ∈ answerReports .cbor channel payload, TellsOutcome channel report := by
  by_cases hfits : payload.length ≤ Hid.maxMessageSize
  · obtain ⟨first, rest, hpackets, ⟨_, _, hfirst⟩, hrest⟩ :=
      Hid.Reader.packets_eq_cons (show Hid.initialHeaderSize < Hid.reportSize by decide) channel
        (show Command.cbor.toByte &&& 0x80 = 0 by rfl) hfits
    rw [answerReports_of_le hfits, messageReports, hpackets]
    intro report hreport
    rcases List.mem_cons.1 hreport with rfl | hreport
    · exact ⟨_, hfirst, rfl, fun _ _ _ _ h => by
        cases h
        exact .inl rfl⟩
    · obtain ⟨_, _, hdecode⟩ := hrest report hreport
      exact ⟨_, hdecode, rfl, fun _ _ _ _ h => by cases h⟩
  · rw [answerReports_of_lt (Nat.lt_of_not_le hfits)]
    intro report hreport
    obtain rfl := List.mem_singleton.1 hreport
    exact tellsOutcome_errorPacket ..

/-- The reports of an outcome tell it. -/
theorem Outcome.tellsOutcome (outcome : Outcome) (channel : ChannelId) :
    ∀ report ∈ outcome.reports channel, TellsOutcome channel report := by
  cases outcome with
  | response body => exact tellsOutcome_answerReports channel body
  | timedOut =>
    intro report hreport
    obtain rfl := List.mem_singleton.1 hreport
    exact tellsOutcome_errorPacket ..
  | aborted reason =>
    cases reason with
    | cancel => exact tellsOutcome_answerReports channel [statusCancelled]
    | resync => simp [reports]

theorem not_tellsOutcome_keepalive (channel : ChannelId) :
    ¬ TellsOutcome channel (keepalive channel) := by
  rintro ⟨packet, hdecode, -, htells⟩
  rw [keepalive, Packet.decode_encode_initial _ channel (by rfl)] at hdecode
  cases hdecode
  have := htells _ _ _ _ rfl
  revert this
  decide

/-- What a request says: keepalives while it is relayed, and then its outcome. -/
structure Dispatch.Speaks (d : Dispatch δ) : Prop where
  /-- A report sent while the request is relayed is a keepalive. -/
  notifies : ∀ relay report rest, d.stage = .notifying relay report rest →
    report = keepalive d.channel ∧ rest = []
  /-- A report sent afterwards belongs to the outcome. -/
  tells : ∀ report ∈ d.unsaid, TellsOutcome d.channel report

namespace Dispatch.Speaks

variable {config : Config} {now : Time} {table table' : ChannelTable} {d d' : Dispatch δ}
  {e : Event δ}

theorem start (config : Config) (now : Time) (a : Accepted) :
    (Dispatch.start config now a : Dispatch δ).Speaks where
  notifies := by simp [Dispatch.start]
  tells := by simp [Dispatch.start, unsaid]

theorem turn (hd : d.Speaks) (hturn : d.Turn config now table e d' table') : d'.Speaks := by
  have hanswer (reports : List Bytes) (htells : ∀ report ∈ reports, TellsOutcome d.channel report) :
      Speaks ({ d with stage := answer reports } : Dispatch δ) := by
    refine ⟨fun _ _ _ h => ?_, by rwa [unsaid_answer]⟩
    cases reports <;> cases h
  have hstop (outcome : Outcome) (relay : Relay δ) :
      Speaks ({ d with stage := stageAfter d.channel outcome relay } : Dispatch δ) := by
    refine ⟨fun _ _ _ h => ?_, ?_⟩
    · have := relay?_stageAfter d.channel outcome relay
      rw [show stageAfter d.channel outcome relay = _ from h] at this
      cases this
    · rw [unsaid_stageAfter]
      exact outcome.tellsOutcome d.channel
  cases hturn with
  | handed | unlisted | failed | rested | unnotified | untold =>
    exact ⟨fun _ _ _ h => (by cases h), by simp [unsaid]⟩
  | ticked =>
    refine ⟨fun _ _ _ h => ?_, by simp [unsaid]⟩
    cases h
    exact ⟨rfl, rfl⟩
  | @notified _ relay report rest stage =>
    obtain ⟨-, rfl⟩ := hd.notifies _ _ _ stage
    exact ⟨fun _ _ _ h => (by cases h), by simp [unsaid, notify]⟩
  | answered => exact hanswer _ ((Outcome.response _).tellsOutcome d.channel)
  | expired | aborted => exact hstop ..
  | gaveUp => exact hanswer _ (Outcome.tellsOutcome _ d.channel)
  | told stage =>
    refine hanswer _ fun report hreport => hd.tells report ?_
    rw [unsaid, stage]
    exact List.mem_cons_of_mem _ hreport

theorem told (signal : Option (DispatchId × Abort)) (hd : d.Speaks) :
    (System.told signal d).Speaks := by
  obtain ⟨-, hchannel, -, -, hstage⟩ := System.told_frame signal d
  refine ⟨?_, ?_⟩
  · rw [hstage, hchannel]
    exact hd.notifies
  · rw [unsaid, hstage, hchannel]
    exact hd.tells

theorem run {config : Config} {permits : System δ → Time × Event δ → Bool}
    {events : List (Time × Event δ)} {t : System δ} {id : DispatchId}
    (hrun : Machine.run? permits (System.fresh config) events = some t)
    (hd : t.dispatch? id = some d) : d.Speaks :=
  Books.forall_dispatch start turn (fun signal _ hd => hd.told signal) hrun hd

end Dispatch.Speaks

/-! ### Requests that were dropped -/

section

variable {s t : System δ} {now : Time} {e : Event δ} {id : DispatchId} {d d' : Dispatch δ}

/-- The rule that a request which was dropped notices it: it is not stopped for another reason. -/
def System.noticed (s : System δ) (e : Time × Event δ) : Bool :=
  match e.2 with
  | .answered id (.ok _) | .expired id => (s.dispatch? id).all (·.signal ≠ some .resync)
  | _ => true

/-- A request sends a report by handing it over. -/
theorem System.pending_of_mem_sentBy {report : Bytes}
    (h : report ∈ sentBy id (s.record (now, e))) :
    ∃ d, s.dispatch? id = some d ∧ d.pendingReport? = some report := by
  obtain ⟨x, hx, hreport⟩ := List.mem_filterMap.1 h
  obtain ⟨y, hy, rfl⟩ := List.mem_map.1 hx
  split at hreport
  · rename_i hsent
    cases hsent
    split_ifs at hreport with hid
    subst hid
    cases hreport
    have hsubject := System.subject?_of_happening hy
    cases e with
    | delivered sender =>
      obtain ⟨_, hpending, hsent⟩ := List.mem_map.1 hy
      cases hsent
      simpa [System.pendingReport?, Option.bind_eq_some_iff] using hpending
    | undelivered sender =>
      obtain ⟨_, -, hlost⟩ := List.mem_map.1 hy
      cases hlost
    | enumerated id' listed =>
      rcases listed with _ | devices
      · cases hy
      · simp only [System.happenings] at hy
        split_ifs at hy
        · obtain ⟨_, -, hother⟩ := List.mem_map.1 hy
          cases hother
        · cases hy
    | answered id' result =>
      rcases result with _ | body
      · cases hy
      · cases List.mem_singleton.1 hy
    | expired id' => cases List.mem_singleton.1 hy
    | heard | missed | failed | shutdown => cases hsubject
    | rested | aborted | ticked | deviceCancelled => cases hy
  · cases hreport

/-- A request that was dropped stays dropped, whatever else its channel is told. -/
theorem Books.signal_told (hs : Books s) {l : Listener} {r : Reaction}
    (hturn : s.listener.Turn s.config now s.table e l r) (hd : s.dispatch? id = some d)
    (hdropped : d.signal = some .resync) : (System.told r.signal d).signal = some .resync := by
  have habort (channel : ChannelId) (reason : Abort) :
      (System.told ((s.table.abort channel reason).1.map (·, reason)) d).signal =
        some .resync := by
    rw [ChannelTable.abort_fst, Dispatch.signal_told, if_neg, hdropped]
    intro hon
    rw [System.id_of_dispatch? hd] at hon
    obtain ⟨d', -, hd', -, -, hother⟩ := hs.entered channel id hon
    rw [hd] at hd'
    cases hd'
    exact hother hdropped
  have hquiet (hsignal : r.signal = none) : (System.told r.signal d).signal = some .resync := by
    rw [hsignal]
    exact hdropped
  cases hturn with
  | asked heard completes follows =>
    cases follows with
    | accepted => exact hquiet rfl
    | cancelled => exact habort ..
    | resynced is nonce =>
      rw [welcomeBack, if_pos nonce]
      exact habort ..
    | idle idle => exact hquiet idle.2.2.1
  | incomplete heard completes idle | other unheard idle => exact hquiet idle.2.2.1

/-- A request of a channel that has nothing to say any more: it is over, or ends without a word, or
was dropped. -/
structure Dropped (id : DispatchId) (channel : ChannelId) (s : System δ) : Prop where
  books : Books s
  numbered : id < s.table.nextDispatch
  speaks : ∀ d, s.dispatch? id = some d → d.channel = channel ∧ d.Speaks
  unsaid : ∀ d, s.dispatch? id = some d → d.unsaid = []
  signal : ∀ d relay, s.dispatch? id = some d → d.stage.relay? = some relay →
    d.signal = some .resync

namespace Dropped

variable {channel : ChannelId}

/-- Such a request sends nothing that tells its outcome. -/
theorem silent (hs : Dropped id channel s) :
    ∀ report ∈ sentBy id (s.record (now, e)), ¬ TellsOutcome channel report := by
  intro report hreport
  obtain ⟨d, hd, hpending⟩ := System.pending_of_mem_sentBy hreport
  obtain ⟨rfl, hspeaks⟩ := hs.speaks d hd
  have hunsaid := hs.unsaid d hd
  rw [Dispatch.pendingReport?] at hpending
  split at hpending
  · rename_i hstage
    cases hpending
    obtain ⟨rfl, -⟩ := hspeaks.notifies _ _ _ hstage
    exact not_tellsOutcome_keepalive d.channel
  · rename_i hstage
    rw [Dispatch.unsaid, hstage] at hunsaid
    cases hunsaid
  · cases hpending

private theorem turn {table : ChannelTable} (hturn : d.Turn s.config now s.table e d' table)
    (hd : s.dispatch? id = some d) (he : e.subject? = some id) (hunsaid : d.unsaid = [])
    (hdropped : ∀ relay, d.stage.relay? = some relay → d.signal = some .resync)
    (hrule : s.noticed (now, e) = true) :
    d'.unsaid = [] ∧ ∀ relay, d'.stage.relay? = some relay → d'.signal = some .resync := by
  have hstay {relay : Relay δ} (hstage : d.stage.relay? = some relay) (stage : Stage δ) :
      ∀ relay, stage.relay? = some relay → d.signal = some .resync :=
    fun _ _ => hdropped relay hstage
  have hstop {stage : Stage δ} (hstage : stage.relay? = none) :
      ∀ relay, stage.relay? = some relay → d.signal = some .resync := by
    intro relay hrelay
    rw [hstage] at hrelay
    cases hrelay
  cases hturn with
  | handed stage | unlisted stage | failed stage | rested stage | ticked stage | unnotified stage =>
    exact ⟨rfl, hstay (by rw [stage]; rfl) _⟩
  | @notified _ _ _ rest stage =>
    exact ⟨by cases rest <;> rfl, hstay (by rw [stage]; rfl) _⟩
  | answered stage | expired stage =>
    cases he
    have hsignal := hdropped _ (by rw [stage]; rfl)
    simp [System.noticed, hd, hsignal] at hrule
  | aborted stage signal =>
    have hsignal := hdropped _ (by rw [stage]; rfl)
    rw [signal] at hsignal
    cases hsignal
    exact ⟨by rw [Dispatch.unsaid_stageAfter]; rfl, hstop (Dispatch.relay?_stageAfter ..)⟩
  | gaveUp stage =>
    rw [Dispatch.unsaid, stage] at hunsaid
    exact ⟨(Dispatch.unsaid_answer d _).trans hunsaid, hstop (Dispatch.relay?_answer _)⟩
  | told stage | untold stage =>
    rw [Dispatch.unsaid, stage] at hunsaid
    cases hunsaid

/-- **A request that has nothing to say stays so**, if it notices that it was dropped. -/
theorem step (hs : Dropped id channel s) (hrule : s.noticed (now, e) = true)
    (h : s.step? now e = some t) : Dropped id channel t := by
  have hbooks := hs.books.step h
  have hnumbered := Nat.lt_of_lt_of_le hs.numbered (System.nextDispatch_le h)
  rcases System.step_cases h with ⟨id', d, d', table, he, hd, hturn, rfl⟩ | ⟨he, l, r, hturn, rfl⟩
  · have hfind := System.dispatch?_turn hs.books.alive hd hturn id
    by_cases hid : id = id'
    · subst hid
      rw [if_pos rfl] at hfind
      obtain ⟨hunsaid, hsignal⟩ := turn hturn hd he (hs.unsaid d hd)
        (fun relay => hs.signal d relay hd) hrule
      obtain ⟨hchannel, hspeaks⟩ := hs.speaks d hd
      refine ⟨hbooks, hnumbered, fun x hx => ?_, fun x hx => ?_, fun x relay hx => ?_⟩ <;>
        (rw [hfind] at hx; split_ifs at hx; cases hx)
      · exact ⟨hturn.frame.2.1.trans hchannel, hspeaks.turn hturn⟩
      · exact hunsaid
      · exact hsignal relay
    · rw [if_neg hid] at hfind
      exact ⟨hbooks, hnumbered, hfind ▸ hs.speaks, hfind ▸ hs.unsaid, hfind ▸ hs.signal⟩
  · have hfind := System.dispatch?_listen hturn hs.numbered
    refine ⟨hbooks, hnumbered, fun x hx => ?_, fun x hx => ?_, fun x relay hx hrelay => ?_⟩ <;>
      (rw [hfind] at hx; obtain ⟨d, hd, rfl⟩ := Option.map_eq_some_iff.1 hx)
    · obtain ⟨hchannel, hspeaks⟩ := hs.speaks d hd
      exact ⟨(System.told_frame _ d).2.1.trans hchannel, hspeaks.told r.signal⟩
    · obtain ⟨-, hchannel, -, -, hstage⟩ := System.told_frame r.signal d
      rw [Dispatch.unsaid, hstage, hchannel]
      exact hs.unsaid d hd
    · rw [(System.told_frame r.signal d).2.2.2.2] at hrelay
      exact hs.books.signal_told hturn hd (hs.signal d relay hd hrelay)

/-- Such a request is silent for good. -/
theorem run (hs : Dropped id channel s) {events : List (Time × Event δ)}
    (hrun : Machine.run? System.noticed s events = some t) :
    Dropped id channel t ∧
      ∀ report ∈ sentBy id (Machine.observe System.record s events),
        ¬ TellsOutcome channel report := by
  refine Machine.run?_induction_observe (f := System.record)
    (P := fun s seen => Dropped id channel s ∧
      ∀ report ∈ sentBy id seen, ¬ TellsOutcome channel report)
    (fun s seen e t hs hrule hstep => ⟨hs.1.step hrule hstep, ?_⟩) ⟨hs, by simp⟩ hrun
  rw [sentBy_append]
  exact List.forall_mem_append.2 ⟨hs.2, hs.1.silent⟩

end Dropped

/-! ### What INIT does -/

variable {config : Config} {report : Bytes} {draws : List ChannelId} {m : Asked} {s₁ : System δ}

/-- What a message does that is complete: it is answered. -/
theorem System.asked_cases (hm : s.listener.completes report = some m)
    (h : s.step? now (.heard report draws) = some t) :
    ∃ r, Follows s.config s.table m r ∧ t = s.react now (Listener.reply r.reports) r ∧
      s.record (now, .heard report draws) =
        (now, .asked m) :: r.accepted.toList.map fun a => (now, .accepted a) := by
  rcases step_cases h with ⟨_, _, _, _, he, -⟩ | ⟨-, l, r, hturn, rfl⟩
  · cases he
  · cases hturn with
    | asked heard completes follows =>
      rw [hm] at completes
      cases completes
      exact ⟨r, follows, rfl, by simp [record, happenings, hm, heard]⟩
    | incomplete heard completes idle =>
      rw [hm] at completes
      cases completes
    | other unheard idle => exact absurd rfl (unheard report draws)

/-- The reports that answer INIT on a channel. -/
def initReports (config : Config) (m : Asked) : List Bytes :=
  answerReports .init m.channel (welcome config m.payload m.channel).encode

/-- INIT on a channel is answered, and has the request in flight on it dropped. -/
theorem System.init_cases (hm : s.listener.completes report = some m) (hinit : m.Is .init)
    (hnonce : m.payload.length = Hid.nonceSize)
    (h : s.step? now (.heard report draws) = some s₁) :
    s₁ = s.react now (Listener.reply (initReports s.config m))
      ⟨(s.table.abort m.channel .resync).2, initReports s.config m,
        (s.table.abort m.channel .resync).1.map (·, .resync), none⟩ := by
  obtain ⟨r, hfollows, rfl, -⟩ := asked_cases hm h
  cases hfollows with
  | accepted is => cases hinit.unique is
  | cancelled is => cases hinit.unique is
  | resynced =>
    rw [welcomeBack, if_pos hnonce]
    rfl
  | idle idle other => exact absurd (.inr (.inr ⟨hinit, hnonce⟩)) other

/-- A reply can be sent. -/
theorem System.replies (s : System δ) (now : Time) (reports : List Bytes) :
    Machine.run? System.noticed { s with listener := Listener.reply reports }
        (reports.map fun _ => (now, .delivered .listener)) = some { s with listener := .idle } ∧
      Machine.observe System.record { s with listener := Listener.reply reports }
        (reports.map fun _ => (now, .delivered .listener)) =
        reports.map fun report => (now, .sent .listener report) := by
  induction reports with
  | nil => exact ⟨rfl, rfl⟩
  | cons report rest ih =>
    have hstep : Machine.next? { s with listener := Listener.reply (report :: rest) }
        (now, Event.delivered .listener) = some { s with listener := Listener.reply rest } := rfl
    exact ⟨Machine.run?_cons.2 ⟨rfl, _, hstep, ih.1⟩, by
      rw [List.map_cons, Machine.observe_cons hstep, ih.2]
      rfl⟩

/-- A request can send its next report. -/
theorem System.hands {permits : System δ → Time × Event δ → Bool}
    (hpermits : ∀ s now, permits s (now, .delivered (.dispatch id)) = true) (now : Time)
    (hd : s.dispatch? id = some d) (hpending : d.pendingReport? = some report) : ∃ t,
      Machine.run? permits s [(now, .delivered (.dispatch id))] = some t ∧
      Machine.observe System.record s [(now, .delivered (.dispatch id))] =
        [(now, .sent (.dispatch id) report)] := by
  have hstep : ∃ t, Machine.next? s (now, Event.delivered (.dispatch id)) = some t := by
    rw [Dispatch.pendingReport?] at hpending
    split at hpending
    · rename_i relay _ rest hstage
      exact ⟨s.put { d with stage := Dispatch.notify relay rest }, by
        simp [Machine.next?, System.step?, System.change, hd, Dispatch.delivered, hstage]⟩
    · rename_i _ rest hstage
      exact ⟨s.put { d with stage := Dispatch.answer rest }, by
        simp [Machine.next?, System.step?, System.change, hd, Dispatch.delivered, hstage]⟩
    · cases hpending
  obtain ⟨t, hstep⟩ := hstep
  refine ⟨t, Machine.run?_cons.2 ⟨hpermits s now, _, hstep, rfl⟩, ?_⟩
  rw [Machine.observe_cons hstep]
  simp [Machine.observe, System.record, System.happenings, System.pendingReport?, hd, hpending]

/-- A request with reports left to say can say one of them. -/
theorem Books.says_of {permits : System δ → Time × Event δ → Bool} (hs : Books s)
    (hdelivered : ∀ s now, permits s (now, .delivered (.dispatch id)) = true)
    (hcancelled : ∀ s now, permits s (now, .deviceCancelled id) = true)
    (hd : s.dispatch? id = some d) (hunsaid : d.unsaid ≠ []) :
    ∃ events t, Machine.run? permits s events = some t ∧
      ∃ report ∈ d.unsaid, report ∈ sentBy id (Machine.observe System.record s events) := by
  rcases hstage : d.stage with relay | ⟨relay, report, rest⟩ | ⟨device, outcome⟩ |
    ⟨report, rest⟩ | _
  · exact absurd (by rw [Dispatch.unsaid, hstage]) hunsaid
  · exact absurd (by rw [Dispatch.unsaid, hstage]) hunsaid
  · -- The device is asked to give the request up, and then the outcome begins.
    have hreports : d.unsaid = outcome.reports d.channel := by rw [Dispatch.unsaid, hstage]
    obtain ⟨first, rest, hsplit⟩ := List.exists_cons_of_ne_nil (hreports ▸ hunsaid)
    have hstep : Machine.next? s (0, Event.deviceCancelled id) =
        some (s.put { d with stage := .answering first rest }) := by
      simp [Machine.next?, System.step?, System.change, hd, Dispatch.deviceCancelled, hstage,
        hsplit, Dispatch.answer]
    have hid := System.id_of_dispatch? hd
    have hfind : (s.put { d with stage := .answering first rest }).dispatch? id =
        some { d with stage := .answering first rest } := by
      rw [System.dispatch?_put hs.alive (by rwa [hid]), if_pos hid.symm]
      rfl
    obtain ⟨t, hrun, htrace⟩ := System.hands hdelivered 0 hfind rfl
    refine ⟨(0, .deviceCancelled id) :: _, t,
      Machine.run?_cons.2 ⟨hcancelled s 0, _, hstep, hrun⟩, first, by simp [hreports, hsplit], ?_⟩
    rw [Machine.observe_cons hstep, htrace]
    simp [System.record, System.happenings, sentBy]
  · obtain ⟨t, hrun, htrace⟩ :=
      System.hands hdelivered 0 hd (by rw [Dispatch.pendingReport?, hstage])
    refine ⟨_, t, hrun, report, by simp [Dispatch.unsaid, hstage], ?_⟩
    rw [htrace]
    simp [sentBy]
  · exact absurd (by rw [Dispatch.unsaid, hstage]) hunsaid

/-- A request with reports left to say can say one of them, also where others notice that they were
dropped. -/
theorem Books.says (hs : Books s) (hd : s.dispatch? id = some d) (hunsaid : d.unsaid ≠ []) :
    ∃ events t, Machine.run? System.noticed s events = some t ∧
      ∃ report ∈ d.unsaid, report ∈ sentBy id (Machine.observe System.record s events) :=
  hs.says_of (fun _ _ => rfl) (fun _ _ => rfl) hd hunsaid

/-- After INIT on a channel, a request of the channel with nothing left to say is dropped. -/
theorem Books.dropped (hs : Books s) (hd : s.dispatch? id = some d) (hspeaks : d.Speaks)
    (hchannel : d.channel = m.channel) (hunsaid : d.unsaid = [])
    (hm : s.listener.completes report = some m) (hinit : m.Is .init)
    (hnonce : m.payload.length = Hid.nonceSize)
    (h : s.step? now (.heard report draws) = some s₁) : Dropped id m.channel s₁ := by
  have hfind : s₁.dispatch? id = some (System.told
      ((s.table.dispatchOn? m.channel).map (·, .resync)) d) := by
    rw [System.init_cases hm hinit hnonce h, System.dispatch?_react, hd, ChannelTable.abort_fst]
    exact Option.or_none
  obtain ⟨-, hsame, -, -, hstage⟩ :=
    System.told_frame ((s.table.dispatchOn? m.channel).map (·, .resync)) d
  have hnumbered := Nat.lt_of_lt_of_le (hs.numbered id d hd) (System.nextDispatch_le h)
  refine ⟨hs.step h, hnumbered, fun x hx => ?_, fun x hx => ?_, fun x relay hx hrelay => ?_⟩ <;>
    (rw [hfind] at hx; cases hx)
  · exact ⟨hsame.trans hchannel, hspeaks.told _⟩
  · rwa [Dispatch.unsaid, hstage, hsame]
  · rw [hstage] at hrelay
    rw [Dispatch.signal_told, System.id_of_dispatch? hd]
    rcases hs.relayed id d relay hd hrelay with hdropped | hon
    · rw [hdropped, ite_self]
    · rw [← hchannel, if_pos hon]

/-- Nothing is in flight on a channel until a CBOR request comes on it. -/
theorem System.stays_free {channel : ChannelId} (hfree : s.table.dispatchOn? channel = none)
    (hnone : ∀ x ∈ s.record (now, e), ∀ m, x.2 = .asked m → m.Is .cbor → m.channel ≠ channel)
    (h : s.step? now e = some t) : t.table.dispatchOn? channel = none := by
  have habort (other : ChannelId) (reason : Abort) :
      (s.table.abort other reason).2.dispatchOn? channel = none := by
    rw [ChannelTable.dispatchOn?_abort, hfree, ite_self]
  have hidle {r : Reaction} (idle : r.Idle s.table) : r.table.dispatchOn? channel = none := by
    rw [ChannelTable.dispatchOn?, idle.1]
    exact hfree
  rcases step_cases h with ⟨id, d, d', table, -, -, hturn, rfl⟩ | ⟨-, l, r, hturn, rfl⟩
  · change table.dispatchOn? channel = none
    rcases hturn.relayed with ⟨rfl, -⟩ | ⟨rfl, -⟩
    · exact hfree
    · rw [ChannelTable.dispatchOn?_finish, hfree, ite_self]
  · change r.table.dispatchOn? channel = none
    cases hturn with
    | @asked report draws m _ heard completes follows =>
      cases follows with
      | accepted is start =>
        have hother : m.channel ≠ channel :=
          hnone (now, .asked m) (by simp [record, happenings, completes]) m rfl is
        rw [ChannelTable.dispatchOn?_start start, if_neg hother.symm, hfree]
      | cancelled => exact habort ..
      | resynced is nonce =>
        rw [welcomeBack, if_pos nonce]
        exact habort ..
      | idle idle => exact hidle idle
    | incomplete heard completes idle | other unheard idle => exact hidle idle

/-- **What INIT on a channel silences.** After INIT with a nonce on a channel, and after its answer,
no outcome of a request that the channel had before is told any more if and only if none of them had
reports of its outcome left to say when INIT came. In any case the channel is free: the next CBOR
request on it is accepted. -/
theorem System.silent_iff_nothing_unsaid {events : List (Time × Event δ)}
    (hrun : Machine.run? Machine.free (fresh config) events = some s)
    (hm : s.listener.completes report = some m) (hinit : m.Is .init)
    (hnonce : m.payload.length = Hid.nonceSize)
    (hheard : s.step? now (.heard report draws) = some s₁) :
    ((∀ more u, Machine.run? noticed s₁ more = some u →
        (∀ answer ∈ initReports s.config m, ∃ now,
          (now, .sent .listener answer) ∈ Machine.observe record s₁ more) →
        ∀ rest t, Machine.run? noticed u rest = some t →
          ∀ id d, s.dispatch? id = some d → d.channel = m.channel →
            ∀ report ∈ sentBy id (Machine.observe record u rest),
              ¬ TellsOutcome m.channel report) ↔
      ∀ id d, s.dispatch? id = some d → d.channel = m.channel → d.unsaid = []) ∧
    ∀ more u, Machine.run? Machine.free s₁ more = some u →
      (∀ x ∈ Machine.observe record s₁ more, ∀ n, x.2 = .asked n → n.Is .cbor →
        n.channel ≠ m.channel) →
      ∀ now report draws n t, u.listener.completes report = some n → n.Is .cbor →
        n.channel = m.channel → u.step? now (.heard report draws) = some t →
        ∃ id, u.record (now, .heard report draws) =
          [(now, .asked n), (now, .accepted ⟨id, m.channel, n.payload⟩)] := by
  have hbooks := Books.run hrun
  refine ⟨⟨fun hsilent id d hd hchannel => ?_, fun hnothing more u hmore _ rest t hrest id d hd
    hchannel => ?_⟩, fun more u hmore hnone now' report' draws' n t hn hcbor hsame hnext => ?_⟩
  · -- Otherwise the reply to INIT is sent, and then a report of the outcome.
    by_contra hunsaid
    have hs₁ := init_cases hm hinit hnonce hheard
    obtain ⟨hreply, htrace⟩ := s₁.replies now (initReports s.config m)
    have hlistener : { s₁ with listener := Listener.reply (initReports s.config m) } = s₁ := by
      rw [hs₁]
      rfl
    rw [hlistener] at hreply htrace
    have hfind : s₁.dispatch? id = some (told
        ((s.table.dispatchOn? m.channel).map (·, .resync)) d) := by
      rw [hs₁, dispatch?_react, hd, ChannelTable.abort_fst]
      exact Option.or_none
    obtain ⟨-, hd₁, -, -, hstage⟩ :=
      told_frame ((s.table.dispatchOn? m.channel).map (·, .resync)) d
    have hunsaid₁ : (told ((s.table.dispatchOn? m.channel).map (·, .resync)) d).unsaid =
        d.unsaid := by
      rw [Dispatch.unsaid, Dispatch.unsaid, hstage, hd₁]
    have hbooks₁ : Books { s₁ with listener := .idle } :=
      let hs := hbooks.step hheard
      ⟨hs.alive, hs.numbered, hs.entered, hs.relayed⟩
    obtain ⟨rest, t, hrest, answer, hanswer, hsaid⟩ := hbooks₁.says
      (show ({ s₁ with listener := .idle } : System δ).dispatch? id = _ from hfind)
      (by rwa [hunsaid₁])
    rw [hunsaid₁] at hanswer
    have htells := (Dispatch.Speaks.run hrun hd).tells answer hanswer
    rw [hchannel] at htells
    refine hsilent _ _ hreply (fun answer hanswer => ⟨now, ?_⟩) rest t hrest id d hd hchannel
      answer hsaid htells
    rw [htrace]
    exact List.mem_map_of_mem hanswer
  · have hdropped := hbooks.dropped hd (Dispatch.Speaks.run hrun hd) hchannel
      (hnothing id d hd hchannel) hm hinit hnonce hheard
    exact ((hdropped.run hmore).1.run hrest).2
  · have hfree : u.table.dispatchOn? m.channel = none := by
      have := Machine.run?_induction_observe (f := record)
        (P := fun s seen => (∀ x ∈ seen, ∀ n, x.2 = .asked n → n.Is .cbor →
          n.channel ≠ m.channel) → s.table.dispatchOn? m.channel = none)
        (fun s seen e t hs _ hstep hnone => stays_free
          (hs fun x hx => hnone x (List.mem_append_left _ hx))
          (fun x hx => hnone x (List.mem_append_right _ hx)) hstep)
        (fun _ => by
          rw [init_cases hm hinit hnonce hheard]
          change (s.table.abort m.channel .resync).2.dispatchOn? m.channel = none
          rw [ChannelTable.dispatchOn?_abort, if_pos ⟨rfl, rfl⟩]) hmore
      exact this hnone
    obtain ⟨r, hfollows, -, hrecord⟩ := asked_cases hn hnext
    rw [hrecord]
    cases hfollows with
    | accepted is start => exact ⟨_, by rw [hsame]; rfl⟩
    | cancelled is => cases hcbor.unique is
    | resynced is => cases hcbor.unique is
    | idle idle other => exact absurd (.inl ⟨hcbor, hsame ▸ hfree⟩) other

/-- INIT on channel 5, with a nonce. -/
def initMessage : Asked := ⟨5, Command.init.toByte, [1, 2, 3, 4, 5, 6, 7, 8]⟩

/-- The report of INIT on channel 5. -/
def initReport : Bytes :=
  Packet.encode Hid.reportSize (.initial 5 Command.init.toByte 8 initMessage.payload)

/-- A request on channel 5 is accepted and handed to a device. -/
def handedRun : List (Time × Event Unit) :=
  [(0, .heard (Packet.encode Hid.reportSize (.initial 5 Command.cbor.toByte 1 [4])) []),
    (0, .enumerated 0 (.ok (.ofList [()])))]

/-- The gateway after that. -/
def handed : System Unit where
  config := .standard
  table := ⟨∅, [], [(5, 0)], 1⟩
  listener := .idle
  dispatches := [⟨0, 5, [4], 30000, 100, none, .relaying (.exchanging ())⟩]

/-- A request that is still at its device when INIT comes is silenced. -/
theorem silent_while_exchanging : ∃ s₁,
    Machine.run? Machine.free (System.fresh .standard) handedRun = some handed ∧
    handed.step? 10 (.heard initReport []) = some s₁ ∧
    ∀ more u, Machine.run? System.noticed s₁ more = some u →
      (∀ answer ∈ initReports handed.config initMessage, ∃ now,
        (now, .sent .listener answer) ∈ Machine.observe System.record s₁ more) →
      ∀ rest t, Machine.run? System.noticed u rest = some t →
        ∀ id d, handed.dispatch? id = some d → d.channel = 5 →
          ∀ report ∈ sentBy id (Machine.observe System.record u rest),
            ¬ TellsOutcome 5 report := by
  have hrun : Machine.run? Machine.free (System.fresh .standard) handedRun = some handed := rfl
  have hcompletes : handed.listener.completes initReport = some initMessage := rfl
  have hinit : initMessage.Is .init := ⟨by decide, by decide, rfl⟩
  have hheard : handed.step? 10 (.heard initReport []) = some _ := rfl
  refine ⟨_, hrun, hheard,
    (System.silent_iff_nothing_unsaid hrun hcompletes hinit rfl hheard).1.2 fun id d hd _ => ?_⟩
  obtain rfl := List.mem_singleton.1 (System.mem_of_dispatch? hd)
  rfl

/-- The device of the request answers with 60 octets, and the first report of the answer is sent;
then INIT comes and is answered. -/
def halfToldRun : List (Time × Event Unit) :=
  handedRun ++ [(10, .answered 0 (.ok (Bytes.zeros 60))), (10, .delivered (.dispatch 0)),
    (10, .heard initReport []), (10, .delivered .listener)]

/-- The rest of an answer is sent after the answer to INIT. -/
theorem not_silent_in_the_middle : ∃ t init report,
    Machine.run? Machine.free (System.fresh .standard)
      (halfToldRun ++ [(10, .delivered (.dispatch 0))]) = some t ∧
    (Machine.observe System.record (System.fresh .standard)
      (halfToldRun ++ [(10, .delivered (.dispatch 0))])).drop 5 =
      [(10, .asked initMessage), (10, .sent .listener init), (10, .sent (.dispatch 0) report)] ∧
    TellsOutcome 5 report := by
  have hrun : Machine.run? Machine.free (System.fresh .standard)
      (halfToldRun ++ [(10, .delivered (.dispatch 0))]) = some _ := rfl
  refine ⟨_, _, Packet.encode Hid.reportSize (.continuation 5 0 (Bytes.zeros 3)), hrun, rfl, _,
    Packet.decode_encode_continuation _ 5 (by rfl) _, rfl, fun _ _ _ _ h => by cases h⟩

end

end Ctap.Gateway
