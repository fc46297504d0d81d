import Ctap.Proofs.Gateway.Answering
import Ctap.Proofs.Hid.Stream

/-!
# What the listener replies

An idle listener takes an initial packet as the beginning of a message. One that gathers a message
takes whatever comes as its continuation, so that an initial packet makes the message faulty, on
whatever channel it comes. A message that is complete is replied to on its channel, unless it asks
for a request to be cancelled, or is a CBOR request that is accepted.

## Main definitions

* `Inbound.Begun`: a message that is being gathered.
* `Listener.inbound?`: the message to which a report belongs.
* `Listener.Becomes`: what can become of a listener.

## Main results

* `System.begun`: what is gathered has begun, in every run.
* `Inbound.Begun.hear_initial`: what becomes of an initial packet in the middle of a message.
* `respond_replies`: where replies go.
* `Listener.proceed_next`: what follows when a report is pushed.
* `System.listener_cases`: what an event makes of the listener.
-/

namespace Ctap

namespace Hid.Reassembler

variable {r next : Reassembler} {raw data : Bytes} {channel : ChannelId} {command : UInt8}
  {length : UInt16}

/-- A reassembler that takes a packet without giving out a message has begun one, unless it passed
over the packet. -/
theorem Takes.started (h : r.Takes raw next none) : next.isStarted = true ∨
    r.gathered = none ∧ Command.keepalive.toByte ≠ r.expected ∧ ∃ length data,
      Packet.decode raw = .ok (.initial r.channel Command.keepalive.toByte length data) := by
  have hsettle {g : Gathered} (hg : (r.settle g).2 = none) : (r.settle g).1.isStarted = true := by
    rw [settle_eq] at hg ⊢
    split_ifs at hg ⊢
    rfl
  generalize hnone : none = o at h
  cases h with
  | passed idle decode other => exact .inr ⟨idle, other, _, _, decode⟩
  | begun | continued => exact .inl (hsettle hnone.symm)

/-- A message begins with its initial packet. -/
theorem isStarted_of_await
    (hdecode : Packet.decode raw = .ok (.initial channel command length data))
    (h : (await channel command).push raw = .ok (next, none)) :
    next.channel = channel ∧ next.isStarted = true := by
  have htakes := push_eq_ok.1 h
  refine ⟨htakes.frame.1, htakes.started.resolve_right ?_⟩
  rintro ⟨-, hother, length', data', hkeepalive⟩
  rw [hdecode] at hkeepalive
  cases hkeepalive
  exact hother (by rfl)

end Hid.Reassembler

namespace Gateway

open Hid (ChannelId Command ErrorCode Packet Reassembler)

variable {δ : Type} {config : Config} {draws : List ChannelId} {now : Time} {table : ChannelTable}
  {report : Bytes} {l next : Listener} {r : Reaction} {m : Inbound}

/-! ### Messages that are gathered -/

/-- Whether a message has begun, on its channel. -/
structure Inbound.Begun (m : Inbound) : Prop where
  channel : m.reassembler.channel = m.channel
  started : m.reassembler.isStarted = true

namespace Listener

/-- The message to which a report belongs, as it is before the report is taken. -/
def inbound? (l : Listener) (report : Bytes) : Option Inbound :=
  match l with
  | idle =>
    match Packet.decode report with
    | .ok (.initial channel command _ _) => some ⟨channel, command, .await channel command⟩
    | _ => none
  | gathering message _ => some message
  | _ => none

/-- A report of a message is pushed into its reassembly. -/
theorem hear_of_inbound (h : l.inbound? report = some m) :
    l.hear config draws now table report =
      proceed config draws now table m (m.reassembler.push report) := by
  cases l with
  | idle =>
    rw [inbound?] at h
    split at h
    · rename_i hdecode
      cases h
      rw [hear, begin, hdecode]
    · cases h
  | gathering message deadline =>
    cases h
    rfl
  | replying | stopped => cases h

/-- A report of no message is ignored, or replied to. -/
theorem hear_of_not_inbound (h : l.inbound? report = none)
    (hhear : l.hear config draws now table report = some (next, r)) :
    next = reply r.reports ∧ r.Idle table := by
  cases l with
  | idle =>
    rw [hear, begin] at hhear
    split at hhear
    · cases hhear
      exact ⟨rfl, rfl, rfl, rfl, rfl⟩
    · cases hhear
      exact ⟨rfl, rfl, rfl, rfl, rfl⟩
    · rename_i hdecode
      rw [inbound?, hdecode] at h
      cases h
  | gathering message deadline => cases h
  | replying | stopped => cases hhear

/-- **What follows when a report is pushed** into the reassembly of a message: the message is
faulty, or goes on, or is complete. -/
theorem proceed_next {pushed : Except Link.Error (Reassembler × Option Bytes)}
    (h : proceed config draws now table m pushed = some (next, r)) :
    (∃ code, next = reply [Hid.errorPacket m.channel code] ∧ r.Idle table) ∨
      (∃ reassembler, pushed = .ok (reassembler, none) ∧ r.Idle table ∧
        next = gathering { m with reassembler } (now + config.continuationTimeout)) ∨
      ∃ payload, respond config draws table m.channel m.command payload = some r ∧
        next = reply r.reports := by
  rcases pushed with cause | ⟨reassembler, _ | payload⟩
  · cases h
    exact .inl ⟨_, rfl, rfl, rfl, rfl, rfl⟩
  · cases h
    exact .inr (.inl ⟨_, rfl, ⟨rfl, rfl, rfl, rfl⟩, rfl⟩)
  · obtain ⟨reaction, hrespond, hnext⟩ := Option.map_eq_some_iff.1 h
    cases hnext
    exact .inr (.inr ⟨payload, hrespond, rfl⟩)

theorem reply_ne_gathering (reports : List Bytes) (message : Inbound) (deadline : Time) :
    reply reports ≠ gathering message deadline := by
  cases reports <;> simp [reply]

/-- A message that is being gathered after a report has begun. -/
theorem begun_of_inbound {reassembler : Reassembler} (h : l.inbound? report = some m)
    (hl : ∀ message deadline, l = .gathering message deadline → message.Begun)
    (hpush : m.reassembler.push report = .ok (reassembler, none)) :
    ({ m with reassembler } : Inbound).Begun := by
  cases l with
  | idle =>
    rw [inbound?] at h
    split at h
    · rename_i hdecode
      cases h
      obtain ⟨hchannel, hstarted⟩ := Reassembler.isStarted_of_await hdecode hpush
      exact ⟨hchannel, hstarted⟩
    · cases h
  | gathering message deadline =>
    cases h
    obtain ⟨hchannel, hstarted⟩ := hl m deadline rfl
    have htakes := Reassembler.push_eq_ok.1 hpush
    refine ⟨htakes.frame.1.trans hchannel, htakes.started.resolve_right ?_⟩
    rintro ⟨hidle, -⟩
    rw [Reassembler.isStarted, hidle] at hstarted
    cases hstarted
  | replying | stopped => cases h

end Listener

namespace Inbound.Begun

variable {channel : ChannelId} {command : UInt8} {length : UInt16} {data : Bytes}

private theorem push_initial (hm : m.Begun)
    (hdecode : Packet.decode report = .ok (.initial channel command length data)) :
    ∃ cause, m.reassembler.push report = .error cause ∧
      codeOf cause = if channel = m.channel then .invalidSequence else .invalidCommand := by
  obtain ⟨g, hg⟩ := Option.isSome_iff_exists.1 hm.started
  rw [Reassembler.push, hdecode]
  simp only [Packet.channel, hm.channel, hg]
  split_ifs <;> exact ⟨_, rfl, rfl⟩

/-- **An initial packet in the middle of a message** makes the message faulty. It is not replied to,
unless it comes on the channel of the message. -/
theorem hear_initial (hm : m.Begun)
    (hdecode : Packet.decode report = .ok (.initial channel command length data))
    (config : Config) (draws : List ChannelId) (now : Time) (table : ChannelTable)
    (deadline : Time) :
    (Listener.gathering m deadline).hear config draws now table report =
      some (.reply [Hid.errorPacket m.channel
          (if channel = m.channel then .invalidSequence else .invalidCommand)],
        .error table m.channel
          (if channel = m.channel then .invalidSequence else .invalidCommand)) := by
  obtain ⟨cause, hpush, hcode⟩ := hm.push_initial hdecode
  rw [Listener.hear, hpush, Listener.proceed, hcode]
  rfl

theorem completes_initial (hm : m.Begun)
    (hdecode : Packet.decode report = .ok (.initial channel command length data))
    (deadline : Time) : (Listener.gathering m deadline).completes report = none := by
  obtain ⟨cause, hpush, -⟩ := hm.push_initial hdecode
  rw [Listener.completes, hpush]
  rfl

end Inbound.Begun

/-! ### Where replies go -/

/-- An answer is sent on its channel. -/
theorem onChannel_answerReports (command : Command) (channel : ChannelId) (payload : Bytes) :
    ∃ first rest, answerReports command channel payload = first :: rest ∧
      OnChannel channel first := by
  by_cases h : payload.length ≤ Hid.maxMessageSize
  · obtain ⟨first, rest, hcons, ⟨_, _, hfirst⟩, -⟩ :=
      Hid.Reader.packets_eq_cons (show Hid.initialHeaderSize < Hid.reportSize by decide) channel
        command.no_type_bit h
    rw [answerReports_of_le h, messageReports]
    exact ⟨first, rest, hcons, _, hfirst, rfl⟩
  · rw [answerReports_of_lt (Nat.lt_of_not_le h)]
    exact ⟨_, [], rfl, onChannel_errorPacket ..⟩

/-- **A message is replied to on its channel**, unless it is CANCEL or a CBOR request that is
accepted. -/
theorem respond_replies {channel : ChannelId} {command : UInt8} {payload : Bytes}
    (h : respond config draws table channel command payload = some r)
    (hcommand : Command.ofByte? command ≠ some .cancel) :
    (∃ a, r.accepted = some a ∧ a.channel = channel ∧ r.reports = []) ∨
      r.accepted = none ∧ ∃ first rest, r.reports = first :: rest ∧ OnChannel channel first := by
  have herror (code : ErrorCode) : ∃ first rest,
      errorReports channel code = first :: rest ∧ OnChannel channel first :=
    ⟨_, [], rfl, onChannel_errorPacket ..⟩
  rw [respond] at h
  split_ifs at h with hbroadcast hinit hzero
  · subst hbroadcast
    rw [welcomeNew] at h
    split_ifs at h
    · split at h
      · cases h
      · cases h
        exact .inr ⟨rfl, onChannel_answerReports ..⟩
    · cases h
      exact .inr ⟨rfl, herror _⟩
  · cases h
    exact .inr ⟨rfl, herror _⟩
  · cases h
    exact .inr ⟨rfl, herror _⟩
  · split at h
    · cases h
      rw [welcomeBack]
      split_ifs
      · exact .inr ⟨rfl, onChannel_answerReports ..⟩
      · exact .inr ⟨rfl, herror _⟩
    · cases h
      exact .inr ⟨rfl, onChannel_answerReports ..⟩
    · cases h
      rw [accept]
      split
      · exact .inr ⟨rfl, herror _⟩
      · exact .inl ⟨_, rfl, rfl, rfl⟩
    · rename_i hcancel
      exact absurd hcancel hcommand
    · cases h
      exact .inr ⟨rfl, herror _⟩

/-! ### What becomes of the listener -/

/-- What an event that concerns no request makes of a listener. -/
inductive Listener.Becomes (config : Config) (now : Time) (table : ChannelTable) (l : Listener) :
    Event δ → Listener → Prop where
  | heard {report : Bytes} {draws : List ChannelId} {next : Listener} {r : Reaction}
    (hear : l.hear config draws now table report = some (next, r)) :
    Becomes config now table l (.heard report draws) next
  | gaveUp {e : Event δ} {m : Inbound} {deadline : Time} {cause : Link.Error}
    (gathering : l = .gathering m deadline) (unheard : ∀ report draws, e ≠ .heard report draws) :
    Becomes config now table l e (.reply [Hid.errorPacket m.channel (codeOf cause)])
  | stopped {e : Event δ} {result : Except Error Unit} (idle : l = .idle)
    (unheard : ∀ report draws, e ≠ .heard report draws) :
    Becomes config now table l e (.stopped result)
  | sent {report : Bytes} {rest : List Bytes} (replying : l = .replying report rest) :
    Becomes config now table l (.delivered .listener) (.reply rest)
  | lost {report : Bytes} {rest : List Bytes} (replying : l = .replying report rest) :
    Becomes config now table l (.undelivered .listener) .idle

namespace System

variable {s t : System δ} {e : Event δ}

/-- **What an event makes of the listener**: nothing, if it concerns a request. -/
theorem listener_cases (h : s.step? now e = some t) :
    (∃ id, e.subject? = some id) ∧ t.listener = s.listener ∨
      e.subject? = none ∧ s.listener.Becomes s.config now s.table e t.listener := by
  have hmiss {cause : Link.Error} (hnone : ∀ report draws, e ≠ .heard report draws)
      (hmap : (s.listener.miss s.table cause).map (fun r => s.react now r.1 r.2) = some t) :
      s.listener.Becomes s.config now s.table e t.listener := by
    obtain ⟨⟨l, r⟩, hmiss, rfl⟩ := Option.map_eq_some_iff.1 hmap
    cases hl : s.listener with
    | gathering m deadline =>
      rw [hl] at hmiss
      cases hmiss
      exact .gaveUp rfl hnone
    | _ =>
      rw [hl] at hmiss
      cases hmiss
  rcases hsubject : e.subject? with _ | id
  · refine .inr ⟨rfl, ?_⟩
    cases e with
    | heard report draws =>
      obtain ⟨⟨l, r⟩, hhear, rfl⟩ := Option.map_eq_some_iff.1 h
      exact .heard hhear
    | missed =>
      rw [step?, tire] at h
      split at h
      · split_ifs at h
        exact hmiss (by simp) h
      · cases h
    | failed cause =>
      rw [step?, hangUp] at h
      split at h
      · rename_i hidle
        cases h
        exact .stopped hidle (by simp)
      · exact hmiss (by simp) h
    | shutdown =>
      rw [step?] at h
      split at h <;> cases h
      rename_i hidle
      exact .stopped hidle (by simp)
    | delivered sender | undelivered sender =>
      cases sender with
      | dispatch id => cases hsubject
      | listener =>
        rw [step?] at h
        split at h <;> cases h
        rename_i hreplying
        first
          | exact .sent hreplying
          | exact .lost hreplying
    | _ => cases hsubject
  · refine .inl ⟨⟨id, rfl⟩, ?_⟩
    rcases step_cases h with ⟨_, _, _, _, -, -, -, rfl⟩ | ⟨hnone, -⟩
    · rfl
    · rw [hnone] at hsubject
      cases hsubject

/-- What an event makes of a listener keeps that what is gathered has begun. -/
theorem begun_step (hs : ∀ m deadline, s.listener = .gathering m deadline → m.Begun)
    (h : s.step? now e = some t) : ∀ m deadline, t.listener = .gathering m deadline → m.Begun := by
  intro m deadline hgathering
  rcases listener_cases h with ⟨-, hsame⟩ | ⟨-, hbecomes⟩
  · exact hs m deadline (hsame ▸ hgathering)
  · rw [hgathering] at hbecomes
    generalize hnext : Listener.gathering m deadline = next at hbecomes
    cases hbecomes with
    | heard hear =>
      rcases hinbound : s.listener.inbound? _ with _ | message
      · rw [(Listener.hear_of_not_inbound hinbound hear).1] at hnext
        exact (Listener.reply_ne_gathering _ _ _ hnext.symm).elim
      · rw [Listener.hear_of_inbound hinbound] at hear
        rcases Listener.proceed_next hear with ⟨code, rfl, -⟩ | ⟨reassembler, hpush, -, rfl⟩ |
          ⟨payload, -, rfl⟩
        · exact (Listener.reply_ne_gathering _ _ _ hnext.symm).elim
        · cases hnext
          exact Listener.begun_of_inbound hinbound hs hpush
        · exact (Listener.reply_ne_gathering _ _ _ hnext.symm).elim
    | gaveUp | sent => exact (Listener.reply_ne_gathering _ _ _ hnext.symm).elim
    | stopped | lost => cases hnext

/-- **What is gathered has begun**, in every run. -/
theorem begun {config : Config} {permits : System δ → Time × Event δ → Bool}
    {events : List (Time × Event δ)}
    (hrun : Machine.run? permits (fresh config) events = some s) :
    ∀ m deadline, s.listener = .gathering m deadline → m.Begun :=
  Machine.run?_induction
    (P := fun s : System δ => ∀ m deadline, s.listener = .gathering m deadline → m.Begun)
    (fun _ _ _ hs _ hstep => begun_step hs hstep) (by simp [fresh]) hrun

end System

end Gateway

end Ctap
