import Ctap.Proofs.Gateway.Replies
import Ctap.Proofs.Gateway.Silence

/-!
# Requests of several channels

Packets of several channels may come in any order. An initial packet that comes while no message of
another channel is gathered leads to something on its channel: a reply, or a keepalive or the
outcome of the request that it begins, unless INIT drops the request. One that comes while a message
of another channel is gathered is lost: it makes that message faulty, and is not replied to.

What a packet has led to is told by the first thing that the listener says or accepts afterwards. It
is followed from the packet on: the message is gathered, or a reply is about to be sent, or the
listener has responded.

## Main definitions

* `Responds`: the first response of the listener.
* `Answered`, `DroppedByInit`: what a packet has led to.
* `System.lossless`, `System.unaided`: the rules that nothing is lost, and that moreover nothing
  more comes from the host.
* `Fate`: how far it has got with a packet.

## Main results

* `Fate.step`, `Fate.leads`: what follows, and where it leads.
* `Fate.of_initial`: what begins with an initial packet.
* `Account.leads`, `Accounts.leads_accepted`: an accepted request is told something.
* `System.answered_unless_interleaved`: what becomes of an initial packet.
-/

namespace Ctap.Gateway

open Hid (ChannelId Command Packet)

variable {δ : Type}

/-! ### The response to a packet -/

/-- Whether something is what the listener makes of a packet: it accepts a request, or says
something. -/
def Happening.isResponse : Happening → Bool
  | .accepted _ | .sent .listener _ | .lost .listener _ => true
  | _ => false

/-- Whether the listener has not responded. -/
def Unanswered (seen : List (Time × Happening)) : Prop := ∀ x ∈ seen, x.2.isResponse = false

/-- Whether something is the first response of the listener, with what was recorded after it. -/
def Responds (seen : List (Time × Happening)) (response : Happening)
    (after : List (Time × Happening)) : Prop :=
  ∃ before now, seen = before ++ (now, response) :: after ∧ Unanswered before

variable {seen more after : List (Time × Happening)} {response : Happening} {channel : ChannelId}

theorem Unanswered.append (h : Unanswered seen) (hmore : Unanswered more) :
    Unanswered (seen ++ more) :=
  List.forall_mem_append.2 ⟨h, hmore⟩

theorem Responds.append (h : Responds seen response after) (more : List (Time × Happening)) :
    Responds (seen ++ more) response (after ++ more) := by
  obtain ⟨before, now, rfl, hbefore⟩ := h
  exact ⟨before, now, by rw [List.append_assoc, List.cons_append], hbefore⟩

/-- Whether a packet of a channel has led to a report on this channel: the listener has replied, or
something has been sent for the request that it accepted. -/
inductive Answered (channel : ChannelId) (seen : List (Time × Happening)) : Prop where
  | replied {report : Bytes} {after : List (Time × Happening)}
    (response : Responds seen (.sent .listener report) after) (onChannel : OnChannel channel report)
  | relayed {a : Accepted} {report : Bytes} {after : List (Time × Happening)}
    (response : Responds seen (.accepted a) after) (accepted : a.channel = channel)
    (sent : report ∈ sentBy a.id after) (onChannel : OnChannel channel report)

/-- Whether a packet has begun a request that INIT on the channel had dropped. -/
def DroppedByInit (channel : ChannelId) (seen : List (Time × Happening)) : Prop :=
  ∃ a after, Responds seen (.accepted a) after ∧ a.channel = channel ∧
    Abort.resync.Heard channel after

namespace System

/-- The rule that no report to the host is lost. -/
def lossless (_ : System δ) (e : Time × Event δ) : Bool :=
  match e.2 with
  | .undelivered _ => false
  | _ => true

/-- The rule that, moreover, no report comes from the host. -/
def unaided (s : System δ) (e : Time × Event δ) : Bool :=
  lossless s e && match e.2 with
    | .heard .. => false
    | _ => true

end System

/-! ### How far it has got with a packet -/

/-- How far it has got with a packet of a channel, after what was recorded since it came. -/
inductive Fate (channel : ChannelId) (s : System δ) (seen : List (Time × Happening)) : Prop where
  | gathering {m : Inbound} {deadline : Time} (listener : s.listener = .gathering m deadline)
    (on : m.channel = channel) (command : Command.ofByte? m.command ≠ some .cancel)
    (unanswered : Unanswered seen)
  | replying {report : Bytes} {rest : List Bytes} (listener : s.listener = .replying report rest)
    (onChannel : OnChannel channel report) (unanswered : Unanswered seen)
  | replied {report : Bytes} {after : List (Time × Happening)}
    (response : Responds seen (.sent .listener report) after) (onChannel : OnChannel channel report)
  | accepted {a : Accepted} {after : List (Time × Happening)}
    (response : Responds seen (.accepted a) after) (accepted : a.channel = channel)

variable {s t : System δ} {now : Time} {e : Event δ} {report : Bytes} {draws : List ChannelId}

theorem unanswered_of_subject {id : DispatchId} (h : e.subject? = some id) :
    Unanswered (s.record (now, e)) := by
  intro x hx
  obtain ⟨y, hy, rfl⟩ := List.mem_map.1 hx
  have hsubject := (System.subject?_of_happening hy).trans h
  cases y with
  | sent sender | lost sender => cases sender <;> first | rfl | cases hsubject
  | asked | accepted => cases hsubject
  | _ => rfl

/-- A listener that is not about to send anything says nothing. -/
theorem record_eq_nil (h : e.subject? = none) (hunheard : ∀ report draws, e ≠ .heard report draws)
    (hquiet : s.pendingReport? .listener = none) : s.record (now, e) = [] := by
  cases e with
  | heard report draws => exact absurd rfl (hunheard report draws)
  | missed | failed | shutdown => rfl
  | delivered sender | undelivered sender =>
    cases sender with
    | dispatch id => cases h
    | listener =>
      rw [System.record, System.happenings, hquiet]
      rfl
  | _ => cases h

theorem System.record_delivered {rest : List Bytes} (h : s.listener = .replying report rest) :
    s.record (now, .delivered .listener) = [(now, .sent .listener report)] := by
  simp [record, happenings, pendingReport?, h]

/-- What is recorded when a report comes is a response if and only if a request is accepted. -/
theorem System.record_heard {next : Listener} {r : Reaction}
    (h : s.listener.hear s.config draws now s.table report = some (next, r)) :
    ∃ before, s.record (now, .heard report draws) =
      before ++ r.accepted.toList.map (fun a => (now, .accepted a)) ∧ Unanswered before := by
  refine ⟨(s.listener.completes report).toList.map fun m => (now, .asked m), ?_, ?_⟩
  · simp [record, happenings, h, Function.comp_def]
  · intro x hx
    obtain ⟨m, -, rfl⟩ := List.mem_map.1 hx
    rfl

namespace Fate

/-- A report of a message decides how far it has got with it. -/
theorem of_inbound {m : Inbound} (hinbound : s.listener.inbound? report = some m)
    (hon : m.channel = channel) (hcommand : Command.ofByte? m.command ≠ some .cancel)
    (hseen : Unanswered seen) (h : s.step? now (.heard report draws) = some t) :
    Fate channel t (seen ++ s.record (now, .heard report draws)) := by
  subst hon
  obtain ⟨⟨next, r⟩, hhear, rfl⟩ := Option.map_eq_some_iff.1 h
  obtain ⟨before, hrecord, hbefore⟩ := System.record_heard hhear
  rw [hrecord]
  have hsilent (hnone : r.accepted = none) :
      Unanswered (seen ++ (before ++ r.accepted.toList.map fun a => (now, .accepted a))) := by
    rw [hnone]
    exact hseen.append (by simpa using hbefore)
  rw [Listener.hear_of_inbound hinbound] at hhear
  rcases Listener.proceed_next hhear with ⟨code, rfl, hidle⟩ | ⟨reassembler, -, hidle, rfl⟩ |
    ⟨payload, hrespond, rfl⟩
  · exact .replying rfl (onChannel_errorPacket ..) (hsilent hidle.2.2.2)
  · exact .gathering rfl rfl hcommand (hsilent hidle.2.2.2)
  · rcases respond_replies hrespond hcommand with ⟨a, haccepted, hchannel, -⟩ |
      ⟨hnone, first, rest, hreports, hfirst⟩
    · have hresponse : Responds (seen ++ (before ++ [(now, .accepted a)])) (.accepted a) [] :=
        ⟨seen ++ before, now, by rw [List.append_assoc], hseen.append hbefore⟩
      rw [haccepted]
      exact .accepted hresponse hchannel
    · exact .replying (congrArg Listener.reply hreports) hfirst (hsilent hnone)

/-- **Whatever happens**, it goes on with a packet as long as nothing is lost. -/
theorem step (hs : Fate channel s seen) (hpermits : System.lossless s (now, e) = true)
    (h : s.step? now e = some t) : Fate channel t (seen ++ s.record (now, e)) := by
  cases hs with
  | @gathering m deadline listener on command unanswered =>
    rcases System.listener_cases h with ⟨⟨id, hid⟩, hsame⟩ | ⟨hnone, hbecomes⟩
    · exact .gathering (hsame.trans listener) on command
        (unanswered.append (unanswered_of_subject hid))
    · generalize hnext : t.listener = next at hbecomes
      cases hbecomes with
      | heard hear => exact of_inbound (by rw [listener]; rfl) on command unanswered h
      | gaveUp gathering unheard =>
        rw [listener] at gathering
        cases gathering
        have hquiet : s.pendingReport? .listener = none := by rw [System.pendingReport?, listener]
        rw [record_eq_nil hnone unheard hquiet, List.append_nil]
        exact .replying hnext (on ▸ onChannel_errorPacket ..) unanswered
      | stopped idle => cases listener.symm.trans idle
      | sent replying | lost replying => cases listener.symm.trans replying
  | @replying first rest listener onChannel unanswered =>
    rcases System.listener_cases h with ⟨⟨id, hid⟩, hsame⟩ | ⟨hnone, hbecomes⟩
    · exact .replying (hsame.trans listener) onChannel
        (unanswered.append (unanswered_of_subject hid))
    · generalize hnext : t.listener = next at hbecomes
      cases hbecomes with
      | heard hear =>
        rw [listener] at hear
        cases hear
      | gaveUp gathering => cases listener.symm.trans gathering
      | stopped idle => cases listener.symm.trans idle
      | sent replying =>
        rw [System.record_delivered listener]
        exact .replied ⟨seen, now, rfl, unanswered⟩ onChannel
      | lost replying => cases hpermits
  | replied response onChannel => exact .replied (response.append _) onChannel
  | accepted response accepted => exact .accepted (response.append _) accepted

/-- The same in every run in which nothing is lost. -/
theorem run (hs : Fate channel s seen) {events : List (Time × Event δ)}
    (hrun : Machine.run? System.lossless s events = some t) :
    Fate channel t (seen ++ Machine.observe System.record s events) := by
  refine Machine.run?_induction_observe (f := System.record)
    (P := fun t later => Fate channel t (seen ++ later)) (fun s later e t hs hpermits hstep => ?_)
    (by rwa [List.append_nil]) hrun
  rw [← List.append_assoc]
  exact hs.step hpermits hstep

private theorem leads_replying {rest : List Bytes} (hlistener : s.listener = .replying report rest)
    (honChannel : OnChannel channel report) (hseen : Unanswered seen) : ∃ more u,
      Machine.run? System.unaided s more = some u ∧
        Answered channel (seen ++ Machine.observe System.record s more) := by
  have hstep : Machine.next? s (0, Event.delivered .listener) =
      some { s with listener := .reply rest } := by
    simp [Machine.next?, System.step?, hlistener]
  refine ⟨[(0, .delivered .listener)], _, Machine.run?_cons.2 ⟨rfl, _, hstep, rfl⟩, ?_⟩
  rw [Machine.observe_cons hstep, System.record_delivered hlistener]
  have hresponse : Responds (seen ++ [(0, .sent .listener report)]) (.sent .listener report) [] :=
    ⟨seen, 0, rfl, hseen⟩
  exact .replied hresponse honChannel

/-- **A packet is replied to in the end**, unless a request was accepted. -/
theorem leads (hs : Fate channel s seen) :
    (∃ a after, Responds seen (.accepted a) after ∧ a.channel = channel) ∨ ∃ more u,
      Machine.run? System.unaided s more = some u ∧
        Answered channel (seen ++ Machine.observe System.record s more) := by
  cases hs with
  | @gathering m deadline listener on command unanswered =>
    -- If nothing more comes from the host, the message is given up.
    have hmissed : s.step? deadline .missed = some (s.react deadline
        (.reply [Hid.errorPacket m.channel .messageTimeout])
        (.error s.table m.channel .messageTimeout)) := by
      rw [System.step?, System.tire, listener]
      exact (if_pos (Nat.le_refl _)).trans rfl
    obtain ⟨more, u, hrun, hanswered⟩ := leads_replying
      (s := s.react deadline _ (.error s.table m.channel .messageTimeout)) rfl
      (onChannel_errorPacket m.channel .messageTimeout) unanswered
    have hnext : Machine.next? s (deadline, Event.missed) = some _ := hmissed
    refine .inr ⟨(deadline, .missed) :: more, u, Machine.run?_cons.2 ⟨rfl, _, hnext, hrun⟩, ?_⟩
    rw [Machine.observe_cons hnext]
    exact on ▸ hanswered
  | replying listener onChannel unanswered =>
    exact .inr (leads_replying listener onChannel unanswered)
  | replied response onChannel =>
    exact .inr ⟨[], s, rfl, .replied (response.append _) onChannel⟩
  | accepted response accepted => exact .inl ⟨_, _, response, accepted⟩

end Fate

/-! ### An accepted request is told something -/

variable {config : Config} {start : Time} {a : Accepted}

/-- Something is to be told, unless INIT dropped the request. -/
theorem Warranted.said {heard : List (Time × Happening)} {answer : List Bytes}
    (h : Warranted config start a heard answer) :
    Abort.resync.Heard a.channel heard ∨ ∃ report ∈ answer, OnChannel a.channel report := by
  have hfirst : answer ≠ [] → ∃ report ∈ answer, OnChannel a.channel report := by
    intro hne
    obtain ⟨first, rest, rfl⟩ := List.exists_cons_of_ne_nil hne
    exact ⟨first, List.mem_cons_self .., h.onChannel first (List.mem_cons_self ..)⟩
  cases h with
  | response answered fits => exact .inr (hfirst (List.cons_ne_nil _ _))
  | tooLong | timedOut => exact .inr (hfirst (List.cons_ne_nil _ _))
  | cancelled => exact .inr (hfirst (List.cons_ne_nil _ _))
  | dropped init => exact .inl init

private theorem leads_keepalive {d : Dispatch δ} {relay : Relay δ} (hs : Books s)
    (hd : s.dispatch? a.id = some d) (hchannel : d.channel = a.channel)
    (hstage : d.stage = .relaying relay ∨ d.stage = .notifying relay (keepalive a.channel) []) :
    ∃ more u, Machine.run? System.unaided s more = some u ∧
      keepalive a.channel ∈ sentBy a.id (Machine.observe System.record s more) := by
  have hpermits (s : System δ) (now : Time) :
      System.unaided s (now, .delivered (.dispatch a.id)) = true := rfl
  rcases hstage with hrelaying | hnotifying
  · -- The next keepalive becomes due.
    have hticked : d.ticked s.config d.nextKeepalive = some { d with
        nextKeepalive := keepaliveAfter s.config.keepaliveInterval d.nextKeepalive d.nextKeepalive
        stage := .notifying relay (keepalive d.channel) [] } := by
      rw [Dispatch.ticked, hrelaying]
      exact (if_pos (Nat.le_refl _)).trans rfl
    have hafter : d.after? s.config d.nextKeepalive s.table (.ticked a.id) = some (_, s.table) :=
      congrArg (Option.map (·, s.table)) hticked
    have hstep : Machine.next? s (d.nextKeepalive, Event.ticked a.id) = some _ :=
      System.step?_of_after? rfl hd hafter
    have hfind := System.dispatch?_turn hs.alive hd (Dispatch.turn_of_after? hafter) a.id
    rw [if_pos rfl] at hfind
    obtain ⟨u, hrun, htrace⟩ := System.hands hpermits 0 hfind rfl
    refine ⟨(d.nextKeepalive, .ticked a.id) :: _, u,
      Machine.run?_cons.2 ⟨rfl, _, hstep, hrun⟩, ?_⟩
    rw [Machine.observe_cons hstep, htrace, hchannel]
    simp [System.record, System.happenings, sentBy]
  · obtain ⟨u, hrun, htrace⟩ := System.hands hpermits 0 hd
      (by rw [Dispatch.pendingReport?, hnotifying])
    refine ⟨_, u, hrun, ?_⟩
    rw [htrace]
    simp [sentBy]

/-- **An accepted request is told something in the end**, unless INIT dropped it. -/
theorem Account.leads (h : Account config start a after (s.dispatch? a.id)) (hs : Books s)
    (hkept : ∀ d, s.dispatch? a.id = some d → d.channel = a.channel)
    (hlost : ∀ x report, (x, .lost (.dispatch a.id) report) ∉ after) :
    Abort.resync.Heard a.channel after ∨ ∃ more u report,
      Machine.run? System.unaided s more = some u ∧
        report ∈ sentBy a.id (after ++ Machine.observe System.record s more) ∧
        OnChannel a.channel report := by
  have hsaid (more : List (Time × Happening)) {report : Bytes}
      (hreport : report ∈ sentBy a.id after) : report ∈ sentBy a.id (after ++ more) := by
    rw [sentBy_append]
    exact List.mem_append_left _ hreport
  generalize hfound : s.dispatch? a.id = o at h
  cases h with
  | @relayed _ d relay n stage deadline keepalives unanswered signal =>
    right
    obtain ⟨more, u, hrun, hmore⟩ := leads_keepalive hs hfound (hkept d hfound) stage
    refine ⟨more, u, _, hrun, ?_, onChannel_keepalive a.channel⟩
    rw [sentBy_append]
    exact List.mem_append_right _ hmore
  | @answering heard later d n stage keepalives warranted =>
    rcases warranted.said with hinit | ⟨report, hreport, honChannel⟩
    · exact .inl (hinit.append later)
    · right
      rcases List.mem_append.1 hreport with hsent | hunsaid
      · refine ⟨[], s, report, rfl, hsaid _ ?_, honChannel⟩
        rw [sentBy_append]
        exact List.mem_append_right _ hsent
      · obtain ⟨more, u, hrun, first, hfirst, hmore⟩ := hs.says_of
          (fun _ _ => rfl : ∀ (s : System δ) now, System.unaided s _ = true) (fun _ _ => rfl) hfound
          (List.ne_nil_of_mem hunsaid)
        refine ⟨more, u, first, hrun, ?_,
          warranted.onChannel first (List.mem_append_right _ hfirst)⟩
        rw [sentBy_append]
        exact List.mem_append_right _ hmore
  | ended course =>
    cases course with
    | relayed keepalives runs => exact runs.elim
    | answering keepalives warranted begun runs => exact runs.elim
    | @answered heard later n keepalives warranted ended =>
      rcases warranted.said with hinit | ⟨report, hreport, honChannel⟩
      · exact .inl (hinit.append later)
      · refine .inr ⟨[], s, report, rfl, hsaid _ ?_, honChannel⟩
        rw [sentBy_append]
        exact List.mem_append_right _ hreport
    | cutShort keepalives warranted lost ended =>
      exact absurd (List.mem_append_right _ lost) (hlost _ _)

theorem Accounts.run {trace : List (Time × Happening)} (hs : Accounts config s trace)
    {permits : System δ → Time × Event δ → Bool} {events : List (Time × Event δ)}
    (hrun : Machine.run? permits s events = some t) :
    Accounts config t (trace ++ Machine.observe System.record s events) := by
  refine Machine.run?_induction_observe (f := System.record)
    (P := fun t later => Accounts config t (trace ++ later)) (fun s later e t hs _ hstep => ?_)
    (by rwa [List.append_nil]) hrun
  rw [← List.append_assoc]
  exact hs.step hstep

/-- Nothing is lost where the rule forbids it. -/
theorem System.not_lost {events : List (Time × Event δ)}
    (hrun : Machine.run? System.lossless s events = some t) (x : Time) (sender : Sender)
    (report : Bytes) : (x, .lost sender report) ∉ Machine.observe System.record s events := by
  refine Machine.run?_induction_observe (f := System.record)
    (P := fun _ later => (x, Happening.lost sender report) ∉ later)
    (fun s later e t hs hpermits _ => ?_) (by simp) hrun
  rw [List.mem_append, not_or]
  refine ⟨hs, fun hlost => ?_⟩
  obtain ⟨y, hy, hpair⟩ := List.mem_map.1 hlost
  cases hpair
  obtain ⟨now, e⟩ := e
  cases e with
  | undelivered sender => cases hpermits
  | heard report' draws =>
    rcases List.mem_append.1 hy with hy | hy <;> obtain ⟨_, -, hother⟩ := List.mem_map.1 hy <;>
      cases hother
  | enumerated id listed =>
    rcases listed with cause | devices
    · cases hy
    · simp only [System.happenings] at hy
      split_ifs at hy
      · obtain ⟨_, -, hother⟩ := List.mem_map.1 hy
        cases hother
      · cases hy
  | answered id result =>
    rcases result with cause | body
    · cases hy
    · cases List.mem_singleton.1 hy
  | expired id => cases List.mem_singleton.1 hy
  | delivered sender =>
    obtain ⟨_, -, hother⟩ := List.mem_map.1 hy
    cases hother
  | _ => cases hy

/-- **What begins with an initial packet**, unless a message of another channel is gathered. -/
theorem Fate.of_initial {command : UInt8} {length : UInt16} {data : Bytes}
    (hdecode : Packet.decode report = .ok (.initial channel command length data))
    (hcommand : Command.ofByte? command ≠ some .cancel)
    (hbegun : ∀ m deadline, s.listener = .gathering m deadline → m.Begun)
    (hown : ∀ m deadline, s.listener = .gathering m deadline → m.channel = channel)
    (h : s.step? now (.heard report draws) = some t) :
    Fate channel t (s.record (now, .heard report draws)) := by
  rw [← List.nil_append (s.record _)]
  cases hlistener : s.listener with
  | idle =>
    have hinbound : s.listener.inbound? report =
        some ⟨channel, command, .await channel command⟩ := by
      rw [hlistener, Listener.inbound?, hdecode]
    exact of_inbound hinbound rfl hcommand (by simp [Unanswered]) h
  | gathering m deadline =>
    obtain ⟨⟨next, r⟩, hhear, rfl⟩ := Option.map_eq_some_iff.1 h
    obtain ⟨before, hrecord, hbefore⟩ := System.record_heard hhear
    rw [hlistener, (hbegun m deadline hlistener).hear_initial hdecode] at hhear
    cases hhear
    rw [hrecord, ← hown m deadline hlistener]
    exact .replying rfl (onChannel_errorPacket ..)
      (by simpa [Reaction.error, Reaction.send] using hbefore)
  | replying | stopped =>
    rw [System.step?, hlistener] at h
    cases h

/-- A request that was accepted is told something, as long as nothing is lost. -/
theorem Accounts.leads_accepted {trace after : List (Time × Happening)}
    (hs : Accounts config s (trace ++ seen)) (hresponse : Responds seen (.accepted a) after)
    (hlost : ∀ x sender report, (x, .lost sender report) ∉ seen) :
    DroppedByInit a.channel seen ∨ ∃ further u, Machine.run? System.unaided s further = some u ∧
      Answered a.channel (seen ++ Machine.observe System.record s further) := by
  obtain ⟨before, start, hsplit, -⟩ := id hresponse
  obtain ⟨-, -, hkept, -, haccount⟩ := hs.accounts (trace ++ before) start a after (by
    rw [List.append_assoc, ← hsplit])
  have hunlost (x : Time) (report : Bytes) : (x, .lost (.dispatch a.id) report) ∉ after :=
    fun hx => hlost x (.dispatch a.id) report
      (hsplit ▸ List.mem_append_right _ (List.mem_cons_of_mem _ hx))
  rcases haccount.leads hs.books (fun d hd => (hkept d hd).1) hunlost with
    hinit | ⟨further, u, report, hfurther, hsent, honChannel⟩
  · exact .inl ⟨a, after, hresponse, rfl, hinit⟩
  · exact .inr ⟨further, u, hfurther, .relayed (hresponse.append _) rfl hsent honChannel⟩

/-- **What becomes of an initial packet**, other than CANCEL. If no message of another channel is
gathered when it comes, it leads to a report on its channel, as long as nothing is lost: a reply, or
something that is sent for the request that it begins; whatever has happened since, this has been
sent, or still is if nothing more comes from the host. The exception is a request that INIT on its
channel dropped. If a message of another channel is gathered, the packet makes that message faulty,
and nothing else. -/
theorem System.answered_unless_interleaved {events : List (Time × Event δ)}
    (hreached : Machine.run? Machine.free (fresh config) events = some s) {command : UInt8}
    {length : UInt16} {data : Bytes}
    (hdecode : Packet.decode report = .ok (.initial channel command length data))
    (hcommand : Command.ofByte? command ≠ some .cancel) (now : Time) (draws : List ChannelId) :
    ((∀ m deadline, s.listener = .gathering m deadline → m.channel = channel) → ∀ more t,
      Machine.run? lossless s ((now, .heard report draws) :: more) = some t →
      ∀ seen, seen = Machine.observe record s ((now, .heard report draws) :: more) →
        DroppedByInit channel seen ∨ ∃ further u, Machine.run? unaided t further = some u ∧
          Answered channel (seen ++ Machine.observe record t further)) ∧
    ∀ m deadline, s.listener = .gathering m deadline → m.channel ≠ channel →
      s.step? now (.heard report draws) =
        some { s with listener := .reply [Hid.errorPacket m.channel .invalidCommand] } ∧
      s.record (now, .heard report draws) = [] := by
  have hbegun := begun hreached
  refine ⟨fun hown more t hrun seen hseen => ?_, fun m deadline hlistener hother => ?_⟩
  · have hfate : Fate channel t seen := by
      obtain ⟨-, s₁, hheard, hmore⟩ := Machine.run?_cons.1 hrun
      rw [hseen, Machine.observe_cons hheard]
      exact (Fate.of_initial hdecode hcommand hbegun hown hheard).run hmore
    rcases hfate.leads with ⟨a, after, hresponse, rfl⟩ | hleads
    · have haccounts : Accounts config s (Machine.observe record (fresh config) events) :=
        (Accounts.fresh config).run hreached
      have hall := haccounts.run hrun
      rw [← hseen] at hall
      exact hall.leads_accepted hresponse (hseen ▸ not_lost hrun)
    · exact .inr hleads
  · have hhear := (hbegun m deadline hlistener).hear_initial hdecode s.config draws now s.table
      deadline
    rw [if_neg (Ne.symm hother)] at hhear
    have hstep : s.step? now (.heard report draws) = some (s.react now
        (.reply [Hid.errorPacket m.channel .invalidCommand])
        (.send s.table [Hid.errorPacket m.channel .invalidCommand])) := by
      rw [step?, hlistener, hhear]
      rfl
    refine ⟨by rw [hstep, react_send], ?_⟩
    have hcompletes := (hbegun m deadline hlistener).completes_initial hdecode deadline
    simp [record, happenings, hlistener, hcompletes, hhear, Reaction.error, Reaction.send]

/-- The first packet of a PING of sixty octets on channel 5. -/
def longPing : Bytes :=
  Packet.encode Hid.reportSize (.initial 5 Command.ping.toByte 60 (Bytes.zeros 57))

/-- The only packet of a PING on channel 7. -/
def shortPing : Bytes := Packet.encode Hid.reportSize (.initial 7 Command.ping.toByte 1 [4])

/-- A PING that comes while nothing is gathered is answered. -/
theorem System.answered_when_idle : ∃ t further u,
    Machine.run? lossless (fresh .standard : System Unit) [(0, .heard shortPing [])] = some t ∧
    Machine.run? unaided t further = some u ∧
    Answered 7 (Machine.observe record (fresh .standard : System Unit) [(0, .heard shortPing [])] ++
      Machine.observe record t further) := by
  have hdecode : Packet.decode shortPing = .ok (.initial 7 Command.ping.toByte 1 _) :=
    Packet.decode_encode_initial _ 7 (by rfl) _ _
  have hreached : Machine.run? Machine.free (fresh .standard : System Unit) [] = some _ := rfl
  have hrun : Machine.run? lossless (fresh .standard : System Unit) [(0, .heard shortPing [])] =
      some _ := rfl
  rcases (answered_unless_interleaved hreached hdecode (by decide) 0 []).1 (by simp [fresh]) [] _
    hrun _ rfl with ⟨a, after, ⟨before, start, hsplit, -⟩, -⟩ | ⟨further, u, hfurther, hanswered⟩
  · -- No request is accepted.
    have hmem : (start, Happening.accepted a) ∈ before ++ (start, .accepted a) :: after := by simp
    rw [← hsplit] at hmem
    cases hmem with
    | tail _ h => cases h
  · exact ⟨_, further, u, hrun, hfurther, hanswered⟩

/-- A gateway with nothing to do does nothing, unless a report comes. -/
theorem System.quiet_step (hlistener : s.listener = .idle ∨ ∃ result, s.listener = .stopped result)
    (hnone : s.dispatches = []) (hpermits : unaided s (now, e) = true)
    (h : s.step? now e = some t) :
    s.record (now, e) = [] ∧ (t.listener = .idle ∨ ∃ result, t.listener = .stopped result) ∧
      t.dispatches = [] := by
  have hquiet : s.pendingReport? .listener = none := by
    rcases hlistener with hidle | ⟨result, hstopped⟩
    · rw [pendingReport?, hidle]
    · rw [pendingReport?, hstopped]
  rcases step_cases h with ⟨id, d, -, -, -, hd, -⟩ | ⟨hsubject, l, r, hturn, rfl⟩
  · rw [dispatch?, hnone] at hd
    cases hd
  · have hunheard : ∀ report draws, e ≠ .heard report draws := by
      rintro report draws rfl
      cases hpermits
    refine ⟨record_eq_nil hsubject hunheard hquiet, ?_, ?_⟩
    · rcases listener_cases h with ⟨⟨id, hid⟩, -⟩ | ⟨-, hbecomes⟩
      · rw [hsubject] at hid
        cases hid
      · generalize (s.react now l r).listener = next at hbecomes
        cases hbecomes with
        | heard => exact absurd rfl (hunheard _ _)
        | stopped => exact .inr ⟨_, rfl⟩
        | gaveUp busy | sent busy | lost busy =>
          rw [busy] at hlistener
          rcases hlistener with hidle | ⟨result, hstopped⟩
          · cases hidle
          · cases hstopped
    · cases hturn with
      | asked | incomplete => exact absurd rfl (hunheard _ _)
      | other unheard idle =>
        obtain ⟨-, -, hsignal, haccepted⟩ := idle
        simp [react, hsignal, haccepted, notifyAbort, hnone]

/-- The PING on channel 7 comes in the middle of the one on channel 5. -/
def swallowedRun : List (Time × Event Unit) :=
  [(0, .heard longPing []), (0, .heard shortPing []), (0, .delivered .listener)]

set_option maxRecDepth 4000 in
/-- A PING that comes in the middle of another one is not answered, whatever happens afterwards. -/
theorem System.swallowed_when_interleaved :
    (∃ data, Packet.decode shortPing = .ok (.initial 7 Command.ping.toByte 1 data)) ∧ ∃ t,
    Machine.run? lossless (fresh .standard) swallowedRun = some t ∧
    ∀ more u, Machine.run? unaided t more = some u → ∀ x sender report,
      (x, .sent sender report) ∈ Machine.observe record (fresh .standard) swallowedRun ++
        Machine.observe record t more → ¬ OnChannel 7 report := by
  have hrun : Machine.run? lossless (fresh .standard) swallowedRun = some _ := rfl
  refine ⟨⟨_, Packet.decode_encode_initial _ 7 (by rfl) _ _⟩, _, hrun,
    fun more u hmore x sender report hsent => ?_⟩
  have hquiet := Machine.run?_induction_observe (f := record)
    (P := fun (s : System Unit) later => later = [] ∧
      (s.listener = .idle ∨ ∃ result, s.listener = .stopped result) ∧ s.dispatches = [])
    (fun s later e t hs hpermits hstep => by
      obtain ⟨rfl, hlistener, hnone⟩ := hs
      exact quiet_step hlistener hnone hpermits hstep) ⟨rfl, .inl rfl, rfl⟩ hmore
  have htrace : Machine.observe record (fresh .standard) swallowedRun =
      [(0, .sent .listener (Hid.errorPacket 5 .invalidCommand))] := rfl
  rw [hquiet.1, List.append_nil, htrace] at hsent
  cases List.mem_singleton.1 hsent
  rintro ⟨packet, hdecode, hchannel⟩
  rw [Hid.errorPacket, Packet.decode_encode_initial _ 5 (by rfl)] at hdecode
  cases hdecode
  revert hchannel
  decide

end Ctap.Gateway
