import Ctap.Gateway.System
import Ctap.Proofs.Machine
import Mathlib.Data.List.Find

/-!
# What an event does to a gateway

An event concerns either one request or the listener. One that concerns a request changes that
request and perhaps the channel table, and nothing else. One that concerns the listener may signal a
request and may start one, and does so only if a message of the host is complete. What happens in a
run is recorded with its instant.

## Main definitions

* `Asked`, `Listener.completes`: a message of the host, and the one that a report completes.
* `Event.subject?`, `Dispatch.after?`: the request that an event concerns, and what becomes of it.
* `Happening`, `System.happenings`: what is recorded of an event.

## Main results

* `Listener.hear_cases`, `respond_cases`: what follows from a report, and from a message.
* `System.own_cases`, `System.step_cases`: what an event does.
* `System.dispatch?_put`, `System.dispatch?_react`: which requests there are afterwards.
-/

namespace Ctap.Gateway

open Hid (ChannelId Command Packet Reassembler)

/-! ### What the host asks for -/

/-- A message of the host that is complete. -/
structure Asked where
  channel : ChannelId
  command : UInt8
  payload : Bytes
deriving DecidableEq

/-- Whether a message comes on a channel of a host and has the given command. -/
def Asked.Is (m : Asked) (command : Command) : Prop :=
  m.channel ≠ Hid.broadcast ∧ m.channel ≠ 0 ∧ Command.ofByte? m.command = some command

instance {m : Asked} {command : Command} : Decidable (m.Is command) :=
  inferInstanceAs (Decidable (_ ∧ _ ∧ _))

/-- Whether a message concerns requests: it begins one, or asks for one to be given up. -/
def Asked.Concerns (m : Asked) (table : ChannelTable) : Prop :=
  m.Is .cbor ∧ table.dispatchOn? m.channel = none ∨ m.Is .cancel ∨
    m.Is .init ∧ m.payload.length = Hid.nonceSize

theorem Asked.Is.unique {m : Asked} {c d : Command} (hc : m.Is c) (hd : m.Is d) : c = d :=
  Option.some.inj (hc.2.2.symm.trans hd.2.2)

/-- Whether a reaction touches no request. -/
def Reaction.Idle (r : Reaction) (table : ChannelTable) : Prop :=
  r.table.inFlight = table.inFlight ∧ r.table.nextDispatch = table.nextDispatch ∧
    r.signal = none ∧ r.accepted = none

theorem Reaction.idle_send {table : ChannelTable} (reports : List Bytes) :
    (Reaction.send table reports).Idle table := ⟨rfl, rfl, rfl, rfl⟩

/-- What follows from a message, as far as requests are concerned. -/
inductive Follows (config : Config) (table : ChannelTable) (m : Asked) : Reaction → Prop where
  | accepted (is : m.Is .cbor) {id : DispatchId} {next : ChannelTable}
    (start : table.start m.channel = some (id, next)) :
    Follows config table m ⟨next, [], none, some ⟨id, m.channel, m.payload⟩⟩
  /-- The request in flight is cancelled, if there is one. -/
  | cancelled (is : m.Is .cancel) : Follows config table m (cancel table m.channel)
  /-- The request in flight is dropped, if there is one. -/
  | resynced (is : m.Is .init) (nonce : m.payload.length = Hid.nonceSize) :
    Follows config table m (welcomeBack config table m.channel m.payload)
  | idle {r : Reaction} (idle : r.Idle table) (other : ¬ m.Concerns table) : Follows config table m r

/-- **What follows from a message.** -/
theorem respond_cases {config : Config} {draws : List ChannelId} {table : ChannelTable} {m : Asked}
    {r : Reaction} (h : respond config draws table m.channel m.command m.payload = some r) :
    Follows config table m r := by
  have hidle (reports : List Bytes) : (Reaction.send table reports).Idle table :=
    Reaction.idle_send reports
  have hnone (hnot : ∀ command, ¬ m.Is command) : ¬ m.Concerns table := by
    rintro (⟨is, -⟩ | is | ⟨is, -⟩) <;> exact hnot _ is
  rw [respond] at h
  split_ifs at h with hbroadcast hinit hzero
  · refine .idle ?_ (hnone fun command is => is.1 hbroadcast)
    rw [welcomeNew] at h
    split_ifs at h
    · split at h
      · cases h
      · rename_i hallocate
        cases h
        obtain ⟨hflight, hnext⟩ := ChannelTable.allocate_requests hallocate
        exact ⟨hflight, hnext, rfl, rfl⟩
    · cases h
      exact hidle _
  · cases h
    exact .idle (hidle _) (hnone fun command is => is.1 hbroadcast)
  · cases h
    exact .idle (hidle _) (hnone fun command is => is.2.1 hzero)
  · split at h
    · rename_i hcommand
      have his : m.Is .init := ⟨hbroadcast, hzero, hcommand⟩
      cases h
      by_cases hnonce : m.payload.length = Hid.nonceSize
      · exact .resynced his hnonce
      · rw [welcomeBack, if_neg hnonce]
        refine .idle (hidle _) ?_
        rintro (⟨is, -⟩ | is | ⟨-, h⟩)
        · cases his.unique is
        · cases his.unique is
        · exact hnonce h
    · rename_i hcommand
      have his : m.Is .ping := ⟨hbroadcast, hzero, hcommand⟩
      cases h
      refine .idle (hidle _) ?_
      rintro (⟨is, -⟩ | is | ⟨is, -⟩) <;> cases his.unique is
    · rename_i hcommand
      have his : m.Is .cbor := ⟨hbroadcast, hzero, hcommand⟩
      cases h
      rw [accept]
      split
      · rename_i hstart
        refine .idle (hidle _) ?_
        rintro (⟨-, hfree⟩ | is | ⟨is, -⟩)
        · rw [ChannelTable.start, hfree] at hstart
          cases hstart
        · cases his.unique is
        · cases his.unique is
      · rename_i hstart
        exact .accepted his hstart
    · rename_i hcommand
      cases h
      exact .cancelled ⟨hbroadcast, hzero, hcommand⟩
    · rename_i hinit _ hcbor hcancel
      cases h
      refine .idle (hidle _) ?_
      rintro (⟨is, -⟩ | is | ⟨is, -⟩)
      · exact hcbor is.2.2
      · exact hcancel is.2.2
      · exact hinit is.2.2

namespace Listener

/-- The payload that is complete after a push, if any. -/
def completed : Except Link.Error (Reassembler × Option Bytes) → Option Bytes
  | .ok (_, payload) => payload
  | .error _ => none

/-- The message that a report completes. -/
def completes (l : Listener) (report : Bytes) : Option Asked :=
  match l with
  | idle =>
    match Packet.decode report with
    | .ok (.initial channel command _ _) =>
      (completed ((Reassembler.await channel command).push report)).map (⟨channel, command, ·⟩)
    | _ => none
  | gathering message _ =>
    (completed (message.reassembler.push report)).map (⟨message.channel, message.command, ·⟩)
  | _ => none

variable {config : Config} {draws : List ChannelId} {now : Time} {table : ChannelTable}
  {report : Bytes} {l next : Listener} {r : Reaction}

private theorem proceed_cases {message : Inbound}
    {pushed : Except Link.Error (Reassembler × Option Bytes)}
    (h : proceed config draws now table message pushed = some (next, r)) :
    (∃ payload, completed pushed = some payload ∧
      respond config draws table message.channel message.command payload = some r ∧
      next = reply r.reports) ∨ completed pushed = none ∧ r = .send table r.reports := by
  rcases pushed with cause | ⟨reassembler, _ | payload⟩
  · cases h
    exact .inr ⟨rfl, rfl⟩
  · cases h
    exact .inr ⟨rfl, rfl⟩
  · obtain ⟨reaction, hrespond, hnext⟩ := Option.map_eq_some_iff.1 h
    cases hnext
    exact .inl ⟨payload, rfl, hrespond, rfl⟩

/-- **What follows from a report**: the message that it completes is answered, and if it completes
none, reports may be sent, but nothing else happens. -/
theorem hear_cases (h : l.hear config draws now table report = some (next, r)) :
    (∃ m, l.completes report = some m ∧
      respond config draws table m.channel m.command m.payload = some r ∧
      next = reply r.reports) ∨ l.completes report = none ∧ r = .send table r.reports := by
  cases l with
  | idle =>
    rw [hear, begin] at h
    rw [completes]
    split at h
    · rename_i hdecode
      cases h
      rw [hdecode]
      exact .inr ⟨rfl, rfl⟩
    · rename_i hdecode
      cases h
      rw [hdecode]
      exact .inr ⟨rfl, rfl⟩
    · rename_i channel command length data hdecode
      rw [hdecode]
      rcases proceed_cases h with ⟨payload, hpayload, hrespond, hnext⟩ | ⟨hnone, hsend⟩
      · exact .inl ⟨⟨channel, command, payload⟩, by simp [hpayload], hrespond, hnext⟩
      · exact .inr ⟨by simp [hnone], hsend⟩
  | gathering message deadline =>
    rw [hear] at h
    rw [completes]
    rcases proceed_cases h with ⟨payload, hpayload, hrespond, hnext⟩ | ⟨hnone, hsend⟩
    · exact .inl ⟨⟨message.channel, message.command, payload⟩, by simp [hpayload], hrespond, hnext⟩
    · exact .inr ⟨by simp [hnone], hsend⟩
  | replying => cases h
  | stopped => cases h

/-- If a message is given up before it is complete, an error is sent, but nothing else happens. -/
theorem miss_eq_send {cause : Link.Error} (h : l.miss table cause = some (next, r)) :
    r = .send table r.reports := by
  cases l with
  | gathering message deadline =>
    cases h
    rfl
  | _ => cases h

end Listener

/-! ### What becomes of a request -/

/-- The report of a keepalive. -/
def keepalive (channel : ChannelId) : Bytes :=
  Packet.encode Hid.reportSize
    (.initial channel Command.keepalive.toByte 1 [Hid.keepaliveProcessing])

variable {δ : Type}

/-- The request that an event concerns. -/
def Event.subject? : Event δ → Option DispatchId
  | .delivered (.dispatch id) | .undelivered (.dispatch id) => some id
  | .enumerated id _ | .answered id _ => some id
  | .rested id | .expired id | .aborted id | .ticked id | .deviceCancelled id => some id
  | _ => none

namespace Dispatch

/-- A request and the channel table after an event that concerns the request. -/
def after? (d : Dispatch δ) (config : Config) (now : Time) (table : ChannelTable) :
    Event δ → Option (Dispatch δ × ChannelTable)
  | .delivered _ => d.delivered.map (·, table)
  | .undelivered _ => d.undelivered.map (·, table)
  | .enumerated _ listed => (d.enumerated config now listed).map (·, table)
  | .answered _ result => d.answered config now table result
  | .rested _ => (d.rested now).map (·, table)
  | .expired _ => d.expired now table
  | .aborted _ => d.aborted table
  | .ticked _ => (d.ticked config now).map (·, table)
  | .deviceCancelled _ => d.deviceCancelled.map (·, table)
  | _ => none

/-- What an event makes of a request, and of the channel table. -/
inductive Turn (config : Config) (now : Time) (table : ChannelTable) (d : Dispatch δ) :
    Event δ → Dispatch δ → ChannelTable → Prop where
  | handed {id : DispatchId} {devices : DeviceList δ} {device : δ}
    (stage : d.stage = .relaying .polling) (first : devices.first? = some device) :
    Turn config now table d (.enumerated id (.ok devices))
      { d with stage := .relaying (.exchanging device) } table
  | unlisted {id : DispatchId} {listed : Except Error (DeviceList δ)}
    (stage : d.stage = .relaying .polling)
    (none : ∀ devices, listed = .ok devices → devices.first? = none) :
    Turn config now table d (.enumerated id listed)
      { d with stage := .relaying (.resting (now + config.pollDelay)) } table
  | failed {id : DispatchId} {cause : Error} {device : δ}
    (stage : d.stage = .relaying (.exchanging device)) :
    Turn config now table d (.answered id (.error cause))
      { d with stage := .relaying (.resting (now + config.pollDelay)) } table
  | rested {id : DispatchId} {wake : Time} (stage : d.stage = .relaying (.resting wake))
    (due : wake ≤ now) :
    Turn config now table d (.rested id) { d with stage := .relaying .polling } table
  | ticked {id : DispatchId} {relay : Relay δ} (stage : d.stage = .relaying relay)
    (due : d.nextKeepalive ≤ now) :
    Turn config now table d (.ticked id)
      { d with
        nextKeepalive := keepaliveAfter config.keepaliveInterval now d.nextKeepalive
        stage := .notifying relay (keepalive d.channel) [] } table
  | notified {sender : Sender} {relay : Relay δ} {report : Bytes} {rest : List Bytes}
    (stage : d.stage = .notifying relay report rest) :
    Turn config now table d (.delivered sender) { d with stage := notify relay rest } table
  | unnotified {sender : Sender} {relay : Relay δ} {report : Bytes} {rest : List Bytes}
    (stage : d.stage = .notifying relay report rest) :
    Turn config now table d (.undelivered sender) { d with stage := .relaying relay } table
  | answered {id : DispatchId} {body : Bytes} {device : δ}
    (stage : d.stage = .relaying (.exchanging device)) :
    Turn config now table d (.answered id (.ok body))
      { d with stage := answer ((Outcome.response body).reports d.channel) }
      (table.finish d.channel d.id)
  | expired {id : DispatchId} {relay : Relay δ} (stage : d.stage = .relaying relay)
    (due : d.deadline ≤ now) :
    Turn config now table d (.expired id)
      { d with stage := stageAfter d.channel .timedOut relay } (table.finish d.channel d.id)
  | aborted {id : DispatchId} {relay : Relay δ} {reason : Abort}
    (stage : d.stage = .relaying relay) (signal : d.signal = some reason) :
    Turn config now table d (.aborted id)
      { d with stage := stageAfter d.channel (.aborted reason) relay }
      (table.finish d.channel d.id)
  | gaveUp {id : DispatchId} {device : δ} {outcome : Outcome}
    (stage : d.stage = .cancelling device outcome) :
    Turn config now table d (.deviceCancelled id)
      { d with stage := answer (outcome.reports d.channel) } table
  | told {sender : Sender} {report : Bytes} {rest : List Bytes}
    (stage : d.stage = .answering report rest) :
    Turn config now table d (.delivered sender) { d with stage := answer rest } table
  | untold {sender : Sender} {report : Bytes} {rest : List Bytes}
    (stage : d.stage = .answering report rest) :
    Turn config now table d (.undelivered sender) { d with stage := .ended } table

variable {config : Config} {now : Time} {table table' : ChannelTable} {d d' : Dispatch δ}
  {e : Event δ}

/-- **What becomes of a request** is one of these things. -/
theorem turn_of_after? (h : d.after? config now table e = some (d', table')) :
    d.Turn config now table e d' table' := by
  obtain ⟨id, channel, request, deadline, nextKeepalive, signal, stage⟩ := d
  cases e with
  | heard | missed | failed | shutdown => cases h
  | delivered sender =>
    cases stage <;> cases h
    · exact .notified rfl
    · exact .told rfl
  | undelivered sender =>
    cases stage <;> cases h
    · exact .unnotified rfl
    · exact .untold rfl
  | enumerated id' listed =>
    rcases stage with (_ | _ | _) | _ | _ | _ | _
    · rcases listed with cause | devices
      · cases h
        exact .unlisted rfl fun _ hlisted => by cases hlisted
      · rcases hfirst : devices.first? with _ | device <;>
          simp only [after?, enumerated, hfirst] at h <;> cases h
        · exact .unlisted rfl fun devices' hlisted => by cases hlisted; exact hfirst
        · exact .handed rfl hfirst
    all_goals cases h
  | answered id' result =>
    rcases stage with (_ | device | _) | _ | _ | _ | _ <;> try cases h
    rcases result with cause | body <;> cases h
    · exact .failed rfl
    · exact .answered rfl
  | rested id' =>
    rcases stage with (_ | _ | wake) | _ | _ | _ | _ <;> try cases h
    by_cases hdue : wake ≤ now <;> simp [after?, Dispatch.rested, hdue] at h
    obtain ⟨rfl, rfl⟩ := h
    exact .rested rfl hdue
  | expired id' =>
    rcases stage with relay | _ | _ | _ | _ <;> try cases h
    by_cases hdue : deadline ≤ now <;> simp [after?, Dispatch.expired, hdue] at h
    obtain ⟨rfl, rfl⟩ := h
    exact .expired rfl hdue
  | aborted id' =>
    rcases stage with relay | _ | _ | _ | _ <;> try cases h
    rcases signal with _ | reason <;> cases h
    exact .aborted rfl rfl
  | ticked id' =>
    rcases stage with relay | _ | _ | _ | _ <;> try cases h
    by_cases hdue : nextKeepalive ≤ now <;> simp [after?, Dispatch.ticked, hdue] at h
    obtain ⟨rfl, rfl⟩ := h
    exact .ticked rfl hdue
  | deviceCancelled id' =>
    cases stage <;> cases h
    exact .gaveUp rfl

theorem Turn.frame (h : d.Turn config now table e d' table') : d'.id = d.id ∧
    d'.channel = d.channel ∧ d'.request = d.request ∧ d'.deadline = d.deadline ∧
    d'.signal = d.signal := by
  cases h <;> exact ⟨rfl, rfl, rfl, rfl, rfl⟩

end Dispatch

/-! ### What an event does -/

/-- What an event that concerns no request makes of the listener, and how the gateway reacts. -/
inductive Listener.Turn (l : Listener) (config : Config) (now : Time) (table : ChannelTable) :
    Event δ → Listener → Reaction → Prop where
  | asked {report : Bytes} {draws : List ChannelId} {m : Asked} {r : Reaction}
    (heard : l.hear config draws now table report = some (Listener.reply r.reports, r))
    (completes : l.completes report = some m) (follows : Follows config table m r) :
    Turn l config now table (.heard report draws) (Listener.reply r.reports) r
  | incomplete {report : Bytes} {draws : List ChannelId} {next : Listener} {r : Reaction}
    (heard : l.hear config draws now table report = some (next, r))
    (completes : l.completes report = none) (idle : r.Idle table) :
    Turn l config now table (.heard report draws) next r
  | other {e : Event δ} {next : Listener} {r : Reaction}
    (unheard : ∀ report draws, e ≠ .heard report draws) (idle : r.Idle table) :
    Turn l config now table e next r

/-- What is recorded of an event. -/
inductive Happening where
  | asked (m : Asked)
  | accepted (a : Accepted)
  | tried (id : DispatchId) (request : Bytes)
  | answered (id : DispatchId) (body : Bytes)
  | expired (id : DispatchId)
  | sent (sender : Sender) (report : Bytes)
  | lost (sender : Sender) (report : Bytes)
deriving DecidableEq

/-- The request that something concerns. -/
def Happening.subject? : Happening → Option DispatchId
  | .tried id _ | .answered id _ | .expired id => some id
  | .sent (.dispatch id) _ | .lost (.dispatch id) _ => some id
  | _ => none

/-- The reports of a request that were sent. -/
def sentBy (id : DispatchId) (trace : List (Time × Happening)) : List Bytes :=
  trace.filterMap fun
    | (_, .sent (.dispatch x) report) => if x = id then some report else none
    | _ => none

namespace System

variable {s t : System δ} {now : Time} {e : Event δ} {id : DispatchId}

instance : Machine (System δ) (Time × Event δ) where
  next? s e := s.step? e.1 e.2

private theorem change_eq_changeBoth (s : System δ) (id : DispatchId)
    (f : Dispatch δ → Option (Dispatch δ)) :
    s.change id f = s.changeBoth id fun d table => (f d).map (·, table) := by
  rw [change, changeBoth]
  cases s.dispatch? id with
  | none => rfl
  | some d => cases h : f d <;> simp [h]

/-- An event that concerns a request changes that request and the channel table. -/
theorem step?_of_subject (h : e.subject? = some id) : s.step? now e =
    s.changeBoth id fun d table => d.after? s.config now table e := by
  cases e with
  | heard | missed | failed | shutdown => cases h
  | delivered sender | undelivered sender =>
    cases sender <;> cases h
    exact change_eq_changeBoth ..
  | answered | expired | aborted =>
    cases h
    rfl
  | _ =>
    cases h
    exact change_eq_changeBoth ..

theorem step?_of_after? {d d' : Dispatch δ} {table : ChannelTable} (h : e.subject? = some id)
    (hd : s.dispatch? id = some d) (hafter : d.after? s.config now s.table e = some (d', table)) :
    s.step? now e = some ({ s with table }.put d') := by
  rw [step?_of_subject h, changeBoth, hd, Option.bind_some, hafter, Option.map_some]

theorem react_send (s : System δ) (now : Time) (l : Listener) (reports : List Bytes) :
    s.react now l (.send s.table reports) = { s with listener := l } := by
  simp [react, Reaction.send, notifyAbort]

/-- An event that concerns the listener is a report that is heard, or changes nothing but the
listener. -/
theorem own_cases (hown : e.subject? = none) (h : s.step? now e = some t) :
    (∃ report draws l r, e = .heard report draws ∧
      s.listener.hear s.config draws now s.table report = some (l, r) ∧ t = s.react now l r) ∨
    (∀ report draws, e ≠ .heard report draws) ∧ t = { s with listener := t.listener } := by
  have hmissed {cause : Link.Error}
      (hmap : (s.listener.miss s.table cause).map (fun r => s.react now r.1 r.2) = some t) :
      t = { s with listener := t.listener } := by
    obtain ⟨⟨l, r⟩, hmiss, rfl⟩ := Option.map_eq_some_iff.1 hmap
    rw [Listener.miss_eq_send hmiss, react_send]
  cases e with
  | heard report draws =>
    obtain ⟨⟨l, r⟩, hhear, rfl⟩ := Option.map_eq_some_iff.1 h
    exact .inl ⟨report, draws, l, r, rfl, hhear, rfl⟩
  | missed =>
    rw [step?, tire] at h
    split at h
    · split_ifs at h
      exact .inr ⟨by simp, hmissed h⟩
    · cases h
  | failed cause =>
    rw [step?, hangUp] at h
    split at h
    · cases h
      exact .inr ⟨by simp, rfl⟩
    · exact .inr ⟨by simp, hmissed h⟩
  | shutdown =>
    rw [step?] at h
    split at h <;> cases h
    exact .inr ⟨by simp, rfl⟩
  | delivered sender | undelivered sender =>
    cases sender with
    | dispatch id => cases hown
    | listener =>
      rw [step?] at h
      split at h <;> cases h
      exact .inr ⟨by simp, rfl⟩
  | _ => cases hown

/-- **What an event does.** It changes the request that it concerns and the channel table, or it
concerns the listener. -/
theorem step_cases (h : s.step? now e = some t) :
    (∃ id d d' table, e.subject? = some id ∧ s.dispatch? id = some d ∧
      d.Turn s.config now s.table e d' table ∧ t = { s with table }.put d') ∨
    (e.subject? = none ∧ ∃ l r, s.listener.Turn s.config now s.table e l r ∧
      t = s.react now l r) := by
  rcases hsubject : e.subject? with _ | id
  · refine .inr ⟨rfl, ?_⟩
    rcases own_cases hsubject h with ⟨report, draws, l, r, rfl, hhear, rfl⟩ | ⟨hunheard, ht⟩
    · rcases Listener.hear_cases hhear with ⟨m, hm, hrespond, rfl⟩ | ⟨hnone, hsend⟩
      · exact ⟨_, r, .asked hhear hm (respond_cases hrespond), rfl⟩
      · exact ⟨l, r, .incomplete hhear hnone (hsend ▸ Reaction.idle_send _), rfl⟩
    · exact ⟨t.listener, .send s.table [], .other hunheard (Reaction.idle_send _),
        ht.trans (react_send ..).symm⟩
  · left
    rw [step?_of_subject hsubject, changeBoth, Option.bind_eq_some_iff] at h
    obtain ⟨d, hd, h⟩ := h
    obtain ⟨⟨d', table⟩, hafter, rfl⟩ := Option.map_eq_some_iff.1 h
    exact ⟨id, d, d', table, rfl, hd, Dispatch.turn_of_after? hafter, rfl⟩

/-! ### Which requests there are afterwards -/

/-- A request that is told to be given up, if it is meant. -/
def told : Option (DispatchId × Abort) → Dispatch δ → Dispatch δ
  | none, d => d
  | some (id, reason), d => if d.id = id then { d with signal := some reason } else d

theorem told_none : (told none : Dispatch δ → Dispatch δ) = fun d => d := by
  funext d
  rfl

theorem told_frame (signal : Option (DispatchId × Abort)) (d : Dispatch δ) :
    (told signal d).id = d.id ∧ (told signal d).channel = d.channel ∧
      (told signal d).request = d.request ∧ (told signal d).deadline = d.deadline ∧
      (told signal d).stage = d.stage := by
  cases signal with
  | none => exact ⟨rfl, rfl, rfl, rfl, rfl⟩
  | some signal =>
    simp only [told]
    split_ifs <;> exact ⟨rfl, rfl, rfl, rfl, rfl⟩

theorem notifyAbort_eq_map (dispatches : List (Dispatch δ)) (signal : Option (DispatchId × Abort)) :
    notifyAbort dispatches signal = dispatches.map (told signal) := by
  cases signal with
  | none => rw [told_none, List.map_id', notifyAbort]
  | some signal => rfl

theorem id_of_dispatch? {d : Dispatch δ} (h : s.dispatch? id = some d) : d.id = id := by
  simpa using List.find?_some h

theorem mem_of_dispatch? {d : Dispatch δ} (h : s.dispatch? id = some d) : d ∈ s.dispatches :=
  List.mem_of_find?_eq_some h

private theorem find?_eq_dispatch? (x : DispatchId) {p : Dispatch δ → Bool}
    (h : ∀ d ∈ s.dispatches, p d = (d.id == x)) : s.dispatches.find? p = s.dispatch? x :=
  List.find?_congr h

/-- The request that was changed is found as it is now, unless it is over; the others are found as
they were. -/
theorem dispatch?_put (hlive : ∀ d ∈ s.dispatches, isOver d = false) {d d' : Dispatch δ}
    (hd : s.dispatch? d'.id = some d) (x : DispatchId) : (s.put d').dispatch? x =
      if x = d'.id then if isOver d' then none else some d' else s.dispatch? x := by
  rw [dispatch?, put, List.find?_filter, List.find?_map]
  by_cases hx : x = d'.id
  · subst hx
    by_cases hover : isOver d' = true
    · rw [if_pos rfl, if_pos hover, Option.map_eq_none_iff, List.find?_eq_none]
      intro e _
      by_cases he : e.id = d'.id <;> simp [he, hover]
    · rw [if_pos rfl, if_neg hover, find?_eq_dispatch? d'.id, hd]
      · simp [id_of_dispatch? hd]
      · intro e _
        by_cases he : e.id = d'.id <;> simp [he, hover]
  · rw [if_neg hx, find?_eq_dispatch? x]
    · cases h : s.dispatch? x with
      | none => rfl
      | some e => simp [id_of_dispatch? h, hx]
    · intro e he
      by_cases hid : e.id = d'.id
      · simp [hid, Ne.symm hx]
      · simp [hid, hlive e he, Bool.beq_eq_decide_eq]

/-- After an event that concerns a request, the request is found as it has become, unless it is
over. -/
theorem dispatch?_turn (hlive : ∀ d ∈ s.dispatches, isOver d = false) {d d' : Dispatch δ}
    {table : ChannelTable} (hd : s.dispatch? id = some d)
    (hturn : d.Turn s.config now s.table e d' table) (x : DispatchId) :
    ({ s with table }.put d').dispatch? x =
      if x = id then if isOver d' then none else some d' else s.dispatch? x := by
  obtain rfl : d'.id = id := hturn.frame.1.trans (id_of_dispatch? hd)
  exact @dispatch?_put δ { s with table } hlive _ _ hd x

/-- A reaction tells a request to be given up, and starts one. -/
theorem dispatch?_react (s : System δ) (now : Time) (l : Listener) (r : Reaction)
    (x : DispatchId) : (s.react now l r).dispatch? x = ((s.dispatch? x).map (told r.signal)).or
      ((r.accepted.filter (·.id = x)).map (Dispatch.start s.config now)) := by
  rw [dispatch?, react, notifyAbort_eq_map, List.find?_append, List.find?_map]
  congr 1
  · rw [find?_eq_dispatch? x]
    intro d _
    simp [(told_frame r.signal d).1]
  · cases r.accepted with
    | none => rfl
    | some a => by_cases h : a.id = x <;> simp [Option.filter, Dispatch.start, h]

/-- A request that is found was found before, or the listener has accepted it. -/
theorem dispatch?_step (hlive : ∀ d ∈ s.dispatches, isOver d = false) (h : s.step? now e = some t)
    {d : Dispatch δ} (hd : t.dispatch? id = some d) :
    (∃ d', s.dispatch? id = some d' ∧ d'.channel = d.channel) ∨
      ∃ report draws next r a, e = .heard report draws ∧
        s.listener.hear s.config draws now s.table report = some (next, r) ∧
        r.accepted = some a ∧ a.id = id ∧ a.channel = d.channel := by
  rcases step_cases h with ⟨x, dx, d', table, -, hdx, hturn, rfl⟩ | ⟨-, l, r, hturn, rfl⟩
  · rw [dispatch?_turn hlive hdx hturn] at hd
    split_ifs at hd with hsame
    · cases hd
      exact .inl ⟨dx, hsame ▸ hdx, hturn.frame.2.1.symm⟩
    · exact .inl ⟨d, hd, rfl⟩
  · rw [dispatch?_react] at hd
    rcases hold : s.dispatch? id with _ | d'
    · right
      rw [hold, Option.map_none, Option.none_or] at hd
      obtain ⟨a, ha, rfl⟩ := Option.map_eq_some_iff.1 hd
      obtain ⟨haccepted, hid⟩ := Option.filter_eq_some_iff.1 ha
      cases hturn with
      | asked heard => exact ⟨_, _, _, r, a, rfl, heard, haccepted, by simpa using hid, rfl⟩
      | incomplete _ _ idle | other _ idle =>
        rw [idle.2.2.2] at haccepted
        cases haccepted
    · rw [hold, Option.map_some, Option.some_or, Option.some.injEq] at hd
      exact .inl ⟨d', rfl, hd ▸ (told_frame r.signal d').2.1.symm⟩

/-! ### What is recorded -/

/-- What is recorded of an event that the state permits. -/
def happenings (s : System δ) (now : Time) : Event δ → List Happening
  | .heard report draws =>
    let reaction := (s.listener.hear s.config draws now s.table report).map (·.2)
    (s.listener.completes report).toList.map .asked ++
      (reaction.bind (·.accepted)).toList.map .accepted
  | .enumerated id (.ok devices) =>
    if devices.first?.isSome then (s.dispatch? id).toList.map (.tried id ·.request) else []
  | .answered id (.ok body) => [.answered id body]
  | .expired id => [.expired id]
  | .delivered sender => (s.pendingReport? sender).toList.map (.sent sender)
  | .undelivered sender => (s.pendingReport? sender).toList.map (.lost sender)
  | _ => []

/-- What is recorded of an event, with its instant. -/
def record (s : System δ) (e : Time × Event δ) : List (Time × Happening) :=
  (s.happenings e.1 e.2).map (e.1, ·)

/-- What is recorded of an event concerns the same request. -/
theorem subject?_of_happening {h : Happening} (hmem : h ∈ s.happenings now e) :
    h.subject? = e.subject? := by
  cases e with
  | heard report draws =>
    rcases List.mem_append.1 hmem with hmem | hmem <;>
      obtain ⟨_, -, rfl⟩ := List.mem_map.1 hmem <;> rfl
  | enumerated id listed =>
    rcases listed with cause | devices
    · cases hmem
    · simp only [happenings] at hmem
      split_ifs at hmem
      · obtain ⟨_, -, rfl⟩ := List.mem_map.1 hmem
        rfl
      · cases hmem
  | answered id result =>
    rcases result with cause | body
    · cases hmem
    · obtain rfl := List.mem_singleton.1 hmem
      rfl
  | expired id =>
    obtain rfl := List.mem_singleton.1 hmem
    rfl
  | delivered sender | undelivered sender =>
    obtain ⟨_, -, rfl⟩ := List.mem_map.1 hmem
    cases sender <;> rfl
  | _ => cases hmem

end System

end Ctap.Gateway
