import Ctap.Proofs.Gateway.Silence

/-!
# Failed exchanges leave no trace

An exchange begins when an idle listener hears a report, and lasts until the listener is idle again.
Meanwhile requests in flight go their own way. An exchange that is answered with an error, for
whatever reason, has touched neither the channel table nor any request: the same events of requests
lead to the same state without it. What changes anything is answered with something else, or with
nothing at all.

## Main definitions

* `IsError`: reports that carry an error message.
* `System.exchanging`: the rule that the listener is at work.
* `Event.ofRequest`, `Happening.ofRequest`: what concerns a request, and not the listener.

## Main results

* `System.own_step`: what the listener does leaves everything else as it is, or is not answered with
  an error.
* `System.failed_exchange_leaves_no_trace`: a failed exchange might as well not have happened.
-/

namespace Ctap.Gateway

open Hid (ChannelId Command Packet)

variable {δ : Type}

/-! ### Error messages -/

/-- Whether a report begins an error message. -/
def IsError (report : Bytes) : Prop :=
  ∃ channel length data,
    Packet.decode report = .ok (.initial channel Command.error.toByte length data)

theorem isError_errorPacket (channel : ChannelId) (code : Hid.ErrorCode) :
    IsError (Hid.errorPacket channel code) :=
  ⟨_, _, _, Packet.decode_encode_initial _ channel (by rfl) _ _⟩

/-- A message with another command is no error message. -/
theorem not_isError_of_mem_messageReports {command : Command} (hcommand : command ≠ .error)
    {channel : ChannelId} {payload : Bytes} (hfits : payload.length ≤ Hid.maxMessageSize) :
    ∀ report ∈ messageReports command channel payload, ¬ IsError report := by
  have htype : command.toByte &&& 0x80 = 0 := by cases command <;> rfl
  have hother : command.toByte ≠ Command.error.toByte := by
    cases command <;> first
      | decide
      | exact absurd rfl hcommand
  obtain ⟨first, rest, hpackets, ⟨_, _, hfirst⟩, hrest⟩ :=
    Hid.Reader.packets_eq_cons (show Hid.initialHeaderSize < Hid.reportSize by decide) channel
      htype hfits
  rintro report hreport ⟨_, _, _, hdecode⟩
  rw [messageReports, hpackets, List.mem_cons] at hreport
  rcases hreport with rfl | hreport
  · rw [hfirst] at hdecode
    simp only [Except.ok.injEq, Packet.initial.injEq] at hdecode
    exact hother hdecode.2.1
  · obtain ⟨_, _, hcontinuation⟩ := hrest report hreport
    rw [hcontinuation] at hdecode
    cases hdecode

theorem not_isError_of_mem_answerReports {command : Command} (hcommand : command ≠ .error)
    {channel : ChannelId} {payload : Bytes} (hfits : payload.length ≤ Hid.maxMessageSize) :
    ∀ report ∈ answerReports command channel payload, ¬ IsError report := by
  rw [answerReports_of_le hfits]
  exact not_isError_of_mem_messageReports hcommand hfits

theorem not_isError_of_mem_welcome {config : Config} (hversion : config.deviceVersion.length = 3)
    {nonce : Bytes} (hnonce : nonce.length = Hid.nonceSize) (channel on : ChannelId) :
    ∀ report ∈ answerReports .init on (welcome config nonce channel).encode, ¬ IsError report := by
  have hlength : (welcome config nonce channel).encode.length = Hid.handshakeSize :=
    Hid.Welcome.length_encode hnonce hversion
  exact not_isError_of_mem_answerReports (by decide) (by rw [hlength]; decide)

/-! ### What the listener does -/

/-- Whether a reaction does no more than send reports. -/
def Reaction.Mere (r : Reaction) (table : ChannelTable) : Prop := r = .send table r.reports

variable {config : Config} {draws : List ChannelId} {now : Time} {table : ChannelTable}
  {channel : ChannelId} {command : UInt8} {payload report : Bytes} {r : Reaction}

/-- **A message that changes anything is not answered with an error.** -/
theorem respond_mere_or (hversion : config.deviceVersion.length = 3)
    (h : respond config draws table channel command payload = some r) :
    r.Mere table ∨ ∀ report ∈ r.reports, ¬ IsError report := by
  rw [respond] at h
  split_ifs at h with hbroadcast hinit hzero
  · rw [welcomeNew] at h
    split_ifs at h with hnonce
    · split at h
      · cases h
      · cases h
        exact .inr (not_isError_of_mem_welcome hversion hnonce _ _)
    · cases h
      exact .inl rfl
  · cases h
    exact .inl rfl
  · cases h
    exact .inl rfl
  · split at h
    · cases h
      rw [welcomeBack]
      split_ifs with hnonce
      · exact .inr (not_isError_of_mem_welcome hversion hnonce _ _)
      · exact .inl rfl
    · cases h
      exact .inl rfl
    · cases h
      rw [accept]
      split
      · exact .inl rfl
      · exact .inr fun _ hreport => by cases hreport
    · cases h
      exact .inr fun _ hreport => by cases hreport
    · cases h
      exact .inl rfl

/-- Whether an event concerns a request. -/
def Event.ofRequest (e : Time × Event δ) : Bool := e.2.subject?.isSome

/-- Whether something that happened concerns a request. -/
def Happening.ofRequest (h : Time × Happening) : Bool := h.2.subject?.isSome

/-- Whether the listener has sent an error, or tried to. -/
def Happening.Fails : Happening → Prop
  | .sent .listener report | .lost .listener report => IsError report
  | _ => False

theorem Happening.Fails.subject? {h : Happening} (hfails : h.Fails) : h.subject? = none := by
  cases h with
  | sent sender report | lost sender report =>
    cases sender with
    | listener => rfl
    | dispatch id => cases hfails
  | _ => cases hfails

namespace System

variable {s t u : System δ} {e : Event δ}

/-- **What the listener does** leaves the channel table and all requests as they are, or it sends
something and no error. -/
theorem own_step (hversion : s.config.deviceVersion.length = 3) (hown : e.subject? = none)
    (h : s.step? now e = some t) :
    t = { s with listener := t.listener } ∨ ∃ reports, t.listener = .reply reports ∧
      ∀ report ∈ reports, ¬ IsError report := by
  rcases own_cases hown h with ⟨report, draws, l, r, rfl, hhear, rfl⟩ | ⟨-, ht⟩
  · have hmere (hr : r.Mere s.table) :
        s.react now l r = { s with listener := (s.react now l r).listener } := by
      rw [hr, react_send]
    rcases Listener.hear_cases hhear with ⟨m, -, hrespond, hl⟩ | ⟨-, hr⟩
    · exact (respond_mere_or hversion hrespond).imp hmere fun hno => ⟨r.reports, hl, hno⟩
    · exact .inl (hmere hr)
  · exact .inl ht

/-- An event of a request takes place whatever the listener does, and is recorded alike. -/
theorem step?_with_listener (hsubject : e.subject?.isSome = true) (h : s.step? now e = some t)
    (l : Listener) : { s with listener := l }.step? now e = some { t with listener := l } ∧
      record { s with listener := l } (now, e) = record s (now, e) ∧ t.listener = s.listener := by
  obtain ⟨id, hid⟩ := Option.isSome_iff_exists.1 hsubject
  rw [step?_of_subject hid, changeBoth, Option.bind_eq_some_iff] at h
  obtain ⟨d, hd, h⟩ := h
  obtain ⟨r, hr, rfl⟩ := Option.map_eq_some_iff.1 h
  refine ⟨?_, ?_, rfl⟩
  · rw [step?_of_subject hid, changeBoth, Option.bind_eq_some_iff]
    exact ⟨d, hd, Option.map_eq_some_iff.2 ⟨r, hr, rfl⟩⟩
  · cases e with
    | heard | missed | failed | shutdown => cases hid
    | delivered sender | undelivered sender =>
      cases sender with
      | dispatch id => rfl
      | listener => cases hid
    | enumerated id listed => cases listed <;> rfl
    | answered id result => cases result <;> rfl
    | _ => rfl

/-! ### Exchanges -/

/-- The rule that the listener is at work. -/
def exchanging (s : System δ) (_ : Time × Event δ) : Bool := !(s.listener matches .idle)

private theorem step_of_replying {report : Bytes} {rest : List Bytes} (hown : e.subject? = none)
    (hl : s.listener = .replying report rest) (h : s.step? now e = some t) :
    ∃ more, more ⊆ rest ∧ t = { s with listener := .reply more } ∧
      ∀ x ∈ record s (now, e), x.2 = .sent .listener report ∨ x.2 = .lost .listener report := by
  have hpending : s.pendingReport? .listener = some report := by rw [pendingReport?, hl]
  cases e with
  | heard =>
    rw [step?, hl] at h
    cases h
  | missed =>
    rw [step?, tire, hl] at h
    cases h
  | failed cause =>
    rw [step?, hangUp, hl] at h
    cases h
  | shutdown =>
    rw [step?, hl] at h
    cases h
  | delivered sender =>
    cases sender with
    | dispatch id => cases hown
    | listener =>
      rw [step?, hl] at h
      cases h
      refine ⟨rest, List.Subset.refl _, rfl, ?_⟩
      simp [record, happenings, hpending]
  | undelivered sender =>
    cases sender with
    | dispatch id => cases hown
    | listener =>
      rw [step?, hl] at h
      cases h
      refine ⟨[], List.nil_subset _, rfl, ?_⟩
      simp [record, happenings, hpending]
  | _ => cases hown

private theorem not_fails_of_quiet
    (h : e.subject?.isSome = true ∨ ∀ report rest, s.listener ≠ .replying report rest) :
    ∀ x ∈ record s (now, e), ¬ x.2.Fails := by
  intro x hx hfails
  obtain ⟨y, hy, rfl⟩ := List.mem_map.1 hx
  have hnone : e.subject? = none := (subject?_of_happening hy).symm.trans hfails.subject?
  rcases h with hsome | hl
  · rw [hnone] at hsome
    cases hsome
  · have hpending : s.pendingReport? .listener = none := by
      rw [pendingReport?]
      split
      · rename_i hreplying
        exact absurd hreplying (hl _ _)
      · rfl
    cases e with
    | heard report draws =>
      rcases List.mem_append.1 hy with hy | hy <;>
        obtain ⟨_, -, rfl⟩ := List.mem_map.1 hy <;> exact hfails
    | delivered sender | undelivered sender =>
      cases sender with
      | dispatch id => cases hnone
      | listener =>
        rw [happenings, hpending] at hy
        cases hy
    | missed | failed | shutdown => cases hy
    | _ => cases hnone

/-- **A listener that replies without an error** sends no error until it is idle again. -/
private theorem not_fails_of_reply {events : List (Time × Event δ)} {reports : List Bytes}
    (hrun : Machine.run? exchanging u events = some t) (hl : u.listener = .reply reports)
    (hno : ∀ report ∈ reports, ¬ IsError report) :
    ∀ x ∈ Machine.observe record u events, ¬ x.2.Fails := by
  induction events generalizing u reports with
  | nil =>
    intro x hx
    cases hx
  | cons e events ih =>
    obtain ⟨now, e⟩ := e
    obtain ⟨hpermits, v, hv, hrest⟩ := Machine.run?_cons.1 hrun
    rw [Machine.observe_cons hv]
    rcases hsubject : e.subject?.isSome with _ | _
    · have hown : e.subject? = none := Option.not_isSome_iff_eq_none.1 (by rw [hsubject]; simp)
      rcases reports with _ | ⟨report, rest⟩
      · rw [exchanging, hl] at hpermits
        cases hpermits
      · obtain ⟨more, hmore, rfl, hrecord⟩ := step_of_replying hown hl hv
        intro x hx
        rcases List.mem_append.1 hx with hx | hx
        · have hreport := hno report (List.mem_cons_self ..)
          rcases hrecord x hx with heq | heq <;> rw [heq] <;> exact hreport
        · exact ih hrest rfl (fun r hr => hno r (List.mem_cons_of_mem _ (hmore hr))) x hx
    · obtain ⟨-, -, hsame⟩ := step?_with_listener hsubject hv .idle
      intro x hx
      rcases List.mem_append.1 hx with hx | hx
      · exact not_fails_of_quiet (.inl hsubject) x hx
      · exact ih hrest (hsame.trans hl) hno x hx

private theorem filter_record (s : System δ) (now : Time) (e : Event δ) :
    (record s (now, e)).filter Happening.ofRequest =
      if e.subject?.isSome then record s (now, e) else [] := by
  have hall : ∀ x ∈ record s (now, e), Happening.ofRequest x = e.subject?.isSome := by
    intro x hx
    obtain ⟨y, hy, rfl⟩ := List.mem_map.1 hx
    rw [Happening.ofRequest, subject?_of_happening hy]
  split_ifs with hsubject
  · exact List.filter_eq_self.2 fun x hx => (hall x hx).trans hsubject
  · exact List.filter_eq_nil_iff.2 fun x hx => by rw [hall x hx]; exact hsubject

/-- **The rest of a failed exchange**: requests go the same way while the listener stays idle. -/
private theorem rest_leaves_no_trace {events : List (Time × Event δ)}
    (hversion : u.config.deviceVersion.length = 3)
    (hrun : Machine.run? exchanging u events = some t) (hend : t.listener = .idle)
    (hfails : (∃ reports, u.listener = .reply reports) ∨
      ∃ x ∈ Machine.observe record u events, x.2.Fails) :
    Machine.run? Machine.free { u with listener := .idle } (events.filter Event.ofRequest) =
        some t ∧
      Machine.observe record { u with listener := .idle } (events.filter Event.ofRequest) =
        (Machine.observe record u events).filter Happening.ofRequest := by
  induction events generalizing u with
  | nil =>
    cases hrun
    exact ⟨by rw [← hend]; rfl, rfl⟩
  | cons e events ih =>
    obtain ⟨now, e⟩ := e
    obtain ⟨hpermits, v, hv, hrest⟩ := Machine.run?_cons.1 hrun
    have hversion' : v.config.deviceVersion.length = 3 := by rwa [config_step hv]
    rw [Machine.observe_cons hv] at hfails ⊢
    rw [List.filter_append, filter_record]
    rcases hsubject : e.subject?.isSome with _ | _
    · have hown : e.subject? = none := Option.not_isSome_iff_eq_none.1 (by rw [hsubject]; simp)
      rw [List.filter_cons_of_neg (by simp [Event.ofRequest, hown]), if_neg Bool.false_ne_true,
        List.nil_append]
      have hmere {l : Listener} (hl : v = { u with listener := l }) :
          { u with listener := .idle } = { v with listener := .idle } := by rw [hl]
      by_cases hreplying : ∃ report rest, u.listener = .replying report rest
      · obtain ⟨report, rest, hl⟩ := hreplying
        obtain ⟨more, -, hmore, -⟩ := step_of_replying hown hl hv
        rw [hmere hmore]
        exact ih hversion' hrest (.inl ⟨more, by rw [hmore]⟩)
      · have hquiet : ∀ x ∈ record u (now, e), ¬ x.2.Fails :=
          not_fails_of_quiet (.inr fun report rest hl => hreplying ⟨report, rest, hl⟩)
        -- The listener is not idle, so what fails is still to come.
        have hlater : ∃ x ∈ Machine.observe record v events, x.2.Fails := by
          rcases hfails with ⟨_ | ⟨report, rest⟩, hl⟩ | ⟨x, hx, hxfails⟩
          · rw [exchanging, hl] at hpermits
            cases hpermits
          · exact absurd ⟨report, rest, hl⟩ hreplying
          · rcases List.mem_append.1 hx with hx | hx
            · exact absurd hxfails (hquiet x hx)
            · exact ⟨x, hx, hxfails⟩
        rcases own_step hversion hown hv with hl | ⟨reports, hl, hno⟩
        · rw [hmere hl]
          exact ih hversion' hrest (.inr hlater)
        · obtain ⟨x, hx, hxfails⟩ := hlater
          exact absurd hxfails (not_fails_of_reply hrest hl hno x hx)
    · obtain ⟨hidle, hrecord, hsame⟩ := step?_with_listener hsubject hv .idle
      have hrest' := ih hversion' hrest ?_
      · rw [List.filter_cons_of_pos (by simpa [Event.ofRequest] using hsubject), if_pos rfl]
        refine ⟨Machine.run?_cons.2 ⟨rfl, _, hidle, hrest'.1⟩, ?_⟩
        rw [Machine.observe_cons hidle, hrecord, hrest'.2]
      · rw [hsame]
        refine hfails.imp_right ?_
        rintro ⟨x, hx, hxfails⟩
        rcases List.mem_append.1 hx with hx | hx
        · exact absurd hxfails (not_fails_of_quiet (.inl hsubject) x hx)
        · exact ⟨x, hx, hxfails⟩

/-- **A failed exchange leaves no trace.** An idle listener hears a report, and until it is idle
again it has answered with an error. If nothing happened to any request meanwhile, the state is the
one before. In any case what happened to requests would have led to the same state without the
exchange, with the same record of them, and whatever comes later goes on from there. -/
theorem failed_exchange_leaves_no_trace {events : List (Time × Event δ)} {report : Bytes}
    {draws : List ChannelId} (hversion : s.config.deviceVersion.length = 3)
    (hidle : s.listener = .idle) (hheard : s.step? now (.heard report draws) = some u)
    (hrun : Machine.run? exchanging u events = some t) (hend : t.listener = .idle)
    (hfails : ∃ x ∈ Machine.observe record u events, x.2.Fails) :
    ((∀ e ∈ events, Event.ofRequest e = false) → t = s) ∧
      Machine.run? Machine.free s (events.filter Event.ofRequest) = some t ∧
      Machine.observe record s (events.filter Event.ofRequest) =
        (Machine.observe record u events).filter Happening.ofRequest ∧
      ∀ later v, Machine.run? Machine.free t later = some v →
        Machine.run? Machine.free s (events.filter Event.ofRequest ++ later) = some v ∧
        Machine.observe record s (events.filter Event.ofRequest ++ later) =
          (Machine.observe record u events).filter Happening.ofRequest ++
            Machine.observe record t later := by
  have hmere : u = { s with listener := u.listener } := by
    rcases own_step hversion rfl hheard with hmere | ⟨reports, hl, hno⟩
    · exact hmere
    · obtain ⟨x, hx, hxfails⟩ := hfails
      exact absurd hxfails (not_fails_of_reply hrun hl hno x hx)
  have hsame : { u with listener := .idle } = s := by rw [hmere, ← hidle]
  obtain ⟨hrest, hrecord⟩ := rest_leaves_no_trace (by rw [hmere]; exact hversion) hrun hend
    (.inr hfails)
  rw [hsame] at hrest hrecord
  refine ⟨fun hnone => ?_, hrest, hrecord, fun later v hlater => ?_⟩
  · rw [List.filter_eq_nil_iff.2 fun e he => by rw [hnone e he]; exact Bool.false_ne_true] at hrest
    exact (Option.some.inj hrest).symm
  · exact ⟨Machine.run?_append hrest hlater, by rw [Machine.observe_append hrest, hrecord]⟩

end System

/-- The first packet of a PING of 60 octets. -/
def firstPing : Bytes :=
  Packet.encode Hid.reportSize (.initial 7 Command.ping.toByte 60 (Bytes.zeros 57))

/-- The rest of the PING does not come, while the request in flight on another channel sends a
keepalive. -/
def missedRun : List (Time × Event Unit) :=
  [(100, .ticked 0), (100, .delivered (.dispatch 0)), (550, .missed), (550, .delivered .listener)]

set_option maxRecDepth 1000 in
/-- The request in flight goes on as if the PING had never come. -/
theorem failed_exchange_leaves_no_trace_of_ping : ∃ u t,
    handed.step? 50 (.heard firstPing []) = some u ∧
    Machine.run? System.exchanging u missedRun = some t ∧
    Machine.observe System.record u missedRun = [(100, .sent (.dispatch 0) (keepalive 5)),
      (550, .sent .listener (Hid.errorPacket 7 .messageTimeout))] ∧
    Machine.run? Machine.free handed (missedRun.filter Event.ofRequest) = some t ∧
    Machine.observe System.record handed (missedRun.filter Event.ofRequest) =
      [(100, .sent (.dispatch 0) (keepalive 5))] := by
  obtain ⟨u, t, hheard, hrun, hend, hrecord⟩ : ∃ u t,
      handed.step? 50 (.heard firstPing []) = some u ∧
      Machine.run? System.exchanging u missedRun = some t ∧ t.listener = .idle ∧
      Machine.observe System.record u missedRun = [(100, .sent (.dispatch 0) (keepalive 5)),
        (550, .sent .listener (Hid.errorPacket 7 .messageTimeout))] :=
    ⟨_, _, rfl, rfl, rfl, rfl⟩
  have hfails : ∃ x ∈ Machine.observe System.record u missedRun, x.2.Fails := by
    refine ⟨(550, .sent .listener _), ?_, isError_errorPacket 7 .messageTimeout⟩
    rw [hrecord]
    exact List.mem_cons_of_mem _ (List.mem_cons_self ..)
  obtain ⟨-, hrest, hkept, -⟩ :=
    System.failed_exchange_leaves_no_trace (by rfl) rfl hheard hrun hend hfails
  refine ⟨u, t, hheard, hrun, hrecord, hrest, ?_⟩
  rw [hkept, hrecord]
  rfl

end Ctap.Gateway
