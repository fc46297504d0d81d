import Ctap.Proofs.Gateway.Silence

/-!
# How long a request occupies its channel

A request takes its channel when it is accepted, and gives it back when it is no longer relayed:
before its device is asked to give it up, and before the first report of its outcome is sent. So a
channel is busy for as long as one of its requests is relayed. A further request that comes after
that is accepted, while the host is still to be told the outcome of the one before.

## Main definitions

* `System.Relays`: the requests that are relayed.
* `System.Due`: the requests whose outcome the host is still to be told.
* `System.Busy`: the channels that are held by requests.
* `Ledger`: what is known of requests, their channels and what INIT has freed.

## Main results

* `Ledger.step`, `Ledger.run`: the ledger is kept in every run.
* `System.holds_channel_iff_relayed`: which requests occupy their channels, and which further
  requests are refused.
-/

namespace Ctap.Gateway

open Hid (ChannelId Command Packet)

variable {δ : Type} {config : Config} {s t : System δ} {now : Time} {e : Event δ}
  {trace : List (Time × Happening)}

/-- A message that is complete is answered. -/
theorem Listener.hear_of_completes {l : Listener} {draws : List ChannelId} {table : ChannelTable}
    {report : Bytes} {m : Asked} (h : l.completes report = some m) :
    l.hear config draws now table report =
      (respond config draws table m.channel m.command m.payload).map
        fun r => (reply r.reports, r) := by
  have hproceed {i : Inbound} {pushed : Except Link.Error (Hid.Reassembler × Option Bytes)}
      (hcompleted : (completed pushed).map (⟨i.channel, i.command, ·⟩) = some m) :
      proceed config draws now table i pushed =
        (respond config draws table m.channel m.command m.payload).map
          fun r => (reply r.reports, r) := by
    obtain ⟨payload, hpayload, rfl⟩ := Option.map_eq_some_iff.1 hcompleted
    rcases pushed with cause | ⟨reassembler, complete⟩
    · cases hpayload
    · rw [completed] at hpayload
      subst hpayload
      rfl
  cases l with
  | idle =>
    rw [completes] at h
    rw [hear, begin]
    split at h
    · rename_i hdecode
      rw [hdecode]
      exact hproceed h
    · cases h
  | gathering message deadline => exact hproceed h
  | replying => cases h
  | stopped => cases h

namespace System

/-- Whether a request is relayed. -/
def Relays (s : System δ) (id : DispatchId) : Prop :=
  ∃ d relay, s.dispatch? id = some d ∧ d.stage.relay? = some relay

/-- Whether the host is still to be told the outcome of a request: it was accepted, no INIT was
heard on its channel since, and it is not over. -/
def Due (s : System δ) (trace : List (Time × Happening)) (a : Accepted) : Prop :=
  (∃ before start after, trace = before ++ (start, .accepted a) :: after ∧
    ¬ Abort.resync.Heard a.channel after) ∧ (s.dispatch? a.id).isSome = true

/-- Whether a channel is held by a request that is relayed. -/
def Busy (s : System δ) (trace : List (Time × Happening)) (channel : ChannelId) : Prop :=
  ∃ a, s.Due trace a ∧ a.channel = channel ∧ s.Relays a.id

/-- A request that is not in flight on a channel does not come back there. -/
theorem stays_off {id : DispatchId} {channel : ChannelId} (hid : id < s.table.nextDispatch)
    (hoff : s.table.dispatchOn? channel ≠ some id) (h : s.step? now e = some t) :
    t.table.dispatchOn? channel ≠ some id := by
  rcases step_cases h with ⟨_, d, d', table, -, -, hturn, rfl⟩ | ⟨-, l, r, hturn, rfl⟩
  · change table.dispatchOn? channel ≠ some id
    rcases hturn.relayed with ⟨rfl, -⟩ | ⟨rfl, -⟩
    · exact hoff
    · rw [ChannelTable.dispatchOn?_finish]
      split_ifs
      · exact nofun
      · exact hoff
  · change r.table.dispatchOn? channel ≠ some id
    have habort (channel' : ChannelId) (reason : Abort) :
        (s.table.abort channel' reason).2.dispatchOn? channel ≠ some id := by
      rw [ChannelTable.dispatchOn?_abort]
      split_ifs
      · exact nofun
      · exact hoff
    have hidle (hr : r.Idle s.table) : r.table.dispatchOn? channel ≠ some id := by
      rwa [ChannelTable.dispatchOn?, hr.1, ← ChannelTable.dispatchOn?]
    cases hturn with
    | asked heard completes follows =>
      cases follows with
      | accepted is start =>
        rw [ChannelTable.dispatchOn?_start start]
        split_ifs
        · intro hsame
          exact Nat.lt_irrefl _ (Option.some.inj hsame ▸ hid)
        · exact hoff
      | cancelled => exact habort _ .cancel
      | resynced is nonce =>
        rw [welcomeBack, if_pos nonce]
        exact habort _ .resync
      | idle idle => exact hidle idle
    | incomplete heard completes idle => exact hidle idle
    | other unheard idle => exact hidle idle

/-- What is recorded as asked was completed by a report. -/
theorem completes_of_asked {x : Time} {m : Asked} (h : (x, .asked m) ∈ s.record (now, e)) :
    ∃ report draws, e = .heard report draws ∧ s.listener.completes report = some m := by
  obtain ⟨y, hy, hpair⟩ := List.mem_map.1 h
  cases hpair
  cases e with
  | heard report draws =>
    rcases List.mem_append.1 hy with hy | hy
    · obtain ⟨m', hm, hsame⟩ := List.mem_map.1 hy
      cases hsame
      exact ⟨report, draws, rfl, Option.mem_toList.1 hm⟩
    · obtain ⟨_, -, hother⟩ := List.mem_map.1 hy
      cases hother
  | enumerated id listed =>
    rcases listed with cause | devices
    · cases hy
    · simp only [happenings] at hy
      split_ifs at hy
      · obtain ⟨_, -, hother⟩ := List.mem_map.1 hy
        cases hother
      · cases hy
  | answered id result =>
    rcases result with cause | body
    · cases hy
    · cases List.mem_singleton.1 hy
  | expired id => cases List.mem_singleton.1 hy
  | delivered sender | undelivered sender =>
    obtain ⟨_, -, hother⟩ := List.mem_map.1 hy
    cases hother
  | _ => cases hy

theorem freed_of_heard {channel : ChannelId} (h : s.step? now e = some t)
    (hinit : Abort.resync.Heard channel (s.record (now, e))) :
    t.table.dispatchOn? channel = none := by
  obtain ⟨x, m, hm, rfl, his, hnonce⟩ := hinit
  obtain ⟨report, draws, rfl, hcompletes⟩ := completes_of_asked hm
  rw [init_cases hcompletes his hnonce h]
  change (s.table.abort m.channel .resync).2.dispatchOn? m.channel = none
  rw [ChannelTable.dispatchOn?_abort, if_pos ⟨rfl, rfl⟩]

/-- Nothing is recorded of an event behind the request that is accepted. -/
theorem eq_nil_of_accepted {start : Time} {a : Accepted} {pre after : List (Time × Happening)}
    (h : s.step? now e = some t)
    (hrecord : s.record (now, e) = pre ++ (start, .accepted a) :: after) : after = [] := by
  have hmem : (start, Happening.accepted a) ∈ s.record (now, e) := by simp [hrecord]
  obtain ⟨rfl, l, m, next, hboth, -⟩ := accepts h hmem
  rw [hboth] at hrecord
  rcases pre with _ | ⟨x, _ | ⟨y, pre⟩⟩ <;> simp at hrecord
  exact hrecord.2

end System

/-- What is known of requests and their channels after what was recorded. -/
structure Ledger (config : Config) (s : System δ) (trace : List (Time × Happening)) : Prop where
  accounts : Accounts config s trace
  recorded : ∀ id d, s.dispatch? id = some d → ∃ start a, (start, .accepted a) ∈ trace ∧ a.id = id
  /-- INIT has taken the requests that were accepted before it off its channel. -/
  freed : ∀ before start a after, trace = before ++ (start, .accepted a) :: after →
    Abort.resync.Heard a.channel after → s.table.dispatchOn? a.channel ≠ some a.id

namespace Ledger

theorem fresh (config : Config) : Ledger config (System.fresh config : System δ) [] where
  accounts := .fresh config
  recorded _ _ h := by simp [System.fresh, System.dispatch?] at h
  freed before start a after h := by simp at h

/-- **Every event keeps the ledger.** -/
theorem step (hs : Ledger config s trace) (h : s.step? now e = some t) :
    Ledger config t (trace ++ s.record (now, e)) where
  accounts := hs.accounts.step h
  recorded id d hd := by
    rcases System.dispatch?_step hs.accounts.books.alive h hd with ⟨d', hd', -⟩ |
      ⟨report, draws, next, r, a, rfl, hhear, haccepted, hid, -⟩
    · obtain ⟨start, a, ha, hid⟩ := hs.recorded id d' hd'
      exact ⟨start, a, List.mem_append_left _ ha, hid⟩
    · have hmem : Happening.accepted a ∈ s.happenings now (.heard report draws) := by
        rw [System.happenings, hhear, Option.map_some, Option.bind_some, haccepted]
        exact List.mem_append_right _ (List.mem_singleton_self _)
      exact ⟨now, a, List.mem_append_right _ (List.mem_map_of_mem hmem), hid⟩
  freed := by
    intro before start a after htrace hheard
    have hopened {pre : List (Time × Happening)}
        (hrecord : s.record (now, e) = pre ++ (start, .accepted a) :: after) :
        t.table.dispatchOn? a.channel ≠ some a.id := by
      rw [System.eq_nil_of_accepted h hrecord] at hheard
      obtain ⟨_, _, hm, -⟩ := hheard
      cases hm
    rcases List.append_eq_append_iff.1 htrace with ⟨pre, -, hrecord⟩ | ⟨post, hold, hafter⟩
    · exact hopened hrecord
    · rcases post with _ | ⟨x, post⟩
      · have hrecord : s.record (now, e) = [] ++ (start, .accepted a) :: after := hafter.symm
        exact hopened hrecord
      · rw [List.cons_append, List.cons.injEq] at hafter
        obtain ⟨rfl, rfl⟩ := hafter
        have hid := (hs.accounts.accounts before start a post hold).1
        by_cases hbefore : Abort.resync.Heard a.channel post
        · exact System.stays_off hid (hs.freed before start a post hold hbefore) h
        · have hnow : Abort.resync.Heard a.channel (s.record (now, e)) := by
            obtain ⟨x, m, hm, hrest⟩ := hheard
            rcases List.mem_append.1 hm with hm | hm
            · exact absurd ⟨x, m, hm, hrest⟩ hbefore
            · exact ⟨x, m, hm, hrest⟩
          simp [System.freed_of_heard h hnow]

/-- **Every run keeps the ledger.** -/
theorem run {events : List (Time × Event δ)}
    (hrun : Machine.run? Machine.free (System.fresh config) events = some t) :
    Ledger config t (Machine.observe System.record (System.fresh config) events) :=
  Machine.run?_induction_observe (fun _ _ _ _ hs _ hstep => hs.step hstep) (.fresh config) hrun

/-- **Which requests are in flight**: those that are relayed, unless INIT has dropped them. -/
theorem dispatchOn?_eq_some_iff (hs : Ledger config s trace)
    {before after : List (Time × Happening)} {start : Time} {a : Accepted}
    (htrace : trace = before ++ (start, .accepted a) :: after) :
    s.table.dispatchOn? a.channel = some a.id ↔
      s.Relays a.id ∧ ¬ Abort.resync.Heard a.channel after := by
  obtain ⟨-, -, hkept, -, haccount⟩ := hs.accounts.accounts before start a after htrace
  constructor
  · intro hon
    obtain ⟨d, relay, hd, -, hrelay, -⟩ := hs.accounts.books.entered a.channel a.id hon
    exact ⟨⟨d, relay, hd, hrelay⟩, fun hheard => hs.freed before start a after htrace hheard hon⟩
  · rintro ⟨⟨d, relay, hd, hrelay⟩, hundropped⟩
    rcases hs.accounts.books.relayed a.id d relay hd hrelay with hresync | hon
    · rw [hd] at haccount
      cases haccount with
      | relayed stage deadline keepalives unanswered signal =>
        exact absurd (signal .resync hresync) hundropped
      | answering stage =>
        rw [stage] at hrelay
        cases hrelay
    · rwa [(hkept d hd).1] at hon

/-- **A channel is busy** if one of its requests is relayed and has not been dropped. -/
theorem isSome_dispatchOn?_iff (hs : Ledger config s trace) (channel : ChannelId) :
    (s.table.dispatchOn? channel).isSome = true ↔ s.Busy trace channel := by
  constructor
  · intro hsome
    obtain ⟨id, hon⟩ := Option.isSome_iff_exists.1 hsome
    obtain ⟨d, relay, hd, hchannel, hrelay, -⟩ := hs.accounts.books.entered channel id hon
    obtain ⟨start, a, ha, rfl⟩ := hs.recorded id d hd
    obtain ⟨before, after, htrace⟩ := List.append_of_mem ha
    have hsame : channel = a.channel :=
      hchannel.symm.trans ((hs.accounts.accounts before start a after htrace).2.2.1 d hd).1
    subst hsame
    obtain ⟨hrelays, hundropped⟩ := (hs.dispatchOn?_eq_some_iff htrace).1 hon
    exact ⟨a, ⟨⟨before, start, after, htrace, hundropped⟩, by rw [hd]; rfl⟩, rfl, hrelays⟩
  · rintro ⟨a, ⟨⟨before, start, after, htrace, hundropped⟩, -⟩, rfl, hrelays⟩
    rw [(hs.dispatchOn?_eq_some_iff htrace).2 ⟨hrelays, hundropped⟩]
    rfl

end Ledger

namespace System

private theorem hear_cbor {report : Bytes} {draws : List ChannelId} {m : Asked}
    (hm : s.listener.completes report = some m) (hcbor : m.Is .cbor) :
    s.listener.hear s.config draws now s.table report =
      some (.reply (accept s.table m.channel m.payload).reports,
        accept s.table m.channel m.payload) := by
  have hrespond : respond s.config draws s.table m.channel m.command m.payload =
      some (accept s.table m.channel m.payload) := by
    rw [respond, if_neg hcbor.1, if_neg hcbor.2.1]
    simp only [hcbor.2.2]
  rw [Listener.hear_of_completes hm, hrespond]
  rfl

/-- **A request holds its channel while it is relayed**, and no longer. A request whose outcome the
host is still to be told is in flight if and only if it is relayed, and at most one such request of
a channel is. A further request on a channel is refused, and nothing else changes, if one such
request of the channel is relayed; otherwise it is accepted, whatever the host is still to be
told. -/
theorem holds_channel_iff_relayed {events : List (Time × Event δ)}
    (hrun : Machine.run? Machine.free (fresh config) events = some t)
    (htrace : trace = Machine.observe record (fresh config) events) :
    (∀ a, t.Due trace a → (t.table.dispatchOn? a.channel = some a.id ↔ t.Relays a.id)) ∧
    (∀ a b, t.Due trace a → t.Due trace b → a.channel = b.channel → t.Relays a.id →
      t.Relays b.id → a.id = b.id) ∧
    ∀ now report draws m, t.listener.completes report = some m → m.Is .cbor →
      ∃ u, t.step? now (.heard report draws) = some u ∧
        (t.Busy trace m.channel →
          u = { t with listener := .reply [Hid.errorPacket m.channel .channelBusy] }) ∧
        (¬ t.Busy trace m.channel → ∃ id, u.Relays id ∧
          (now, .accepted ⟨id, m.channel, m.payload⟩) ∈
            t.record (now, .heard report draws)) := by
  have hledger : Ledger config t trace := htrace ▸ Ledger.run hrun
  have hholds (a : Accepted) (ha : t.Due trace a) :
      t.table.dispatchOn? a.channel = some a.id ↔ t.Relays a.id := by
    obtain ⟨⟨before, start, after, hsplit, hundropped⟩, -⟩ := ha
    rw [hledger.dispatchOn?_eq_some_iff hsplit, and_iff_left hundropped]
  refine ⟨hholds, fun a b ha hb hchannel hrelaysA hrelaysB => ?_, ?_⟩
  · have hon := (hholds a ha).2 hrelaysA
    rw [hchannel, (hholds b hb).2 hrelaysB] at hon
    exact (Option.some.inj hon).symm
  · intro now report draws m hm hcbor
    have hhear : t.listener.hear t.config draws now t.table report = _ := hear_cbor hm hcbor
    refine ⟨_, by rw [step?, hhear]; rfl, fun hbusy => ?_, fun hfree => ?_⟩
    · obtain ⟨id, hon⟩ := Option.isSome_iff_exists.1 ((hledger.isSome_dispatchOn?_iff _).2 hbusy)
      have hrefused : accept t.table m.channel m.payload =
          .error t.table m.channel .channelBusy := by
        rw [accept, ChannelTable.start, hon]
      rw [hrefused]
      exact react_send ..
    · rw [← hledger.isSome_dispatchOn?_iff, Option.not_isSome_iff_eq_none] at hfree
      obtain ⟨next, hstart⟩ : ∃ next, t.table.start m.channel = some (t.table.nextDispatch, next) :=
        ⟨_, ChannelTable.start_eq_some.2 ⟨hfree, rfl⟩⟩
      have haccepted : accept t.table m.channel m.payload =
          ⟨next, [], none, some ⟨t.table.nextDispatch, m.channel, m.payload⟩⟩ := by
        rw [accept, hstart]
      refine ⟨t.table.nextDispatch, ?_, ?_⟩
      · rw [haccepted]
        exact ⟨_, .polling, hledger.accounts.books.dispatch?_accept _ hstart _, rfl⟩
      · simp [record, happenings, hm, hhear, haccepted]

end System

/-- A message of one octet on channel 5. -/
def shortReport (command : Command) (octet : UInt8) : Bytes :=
  Packet.encode Hid.reportSize (.initial 5 command.toByte 1 [octet])

/-- A further request on the channel is refused while the one before is at its device. -/
theorem holds_channel_while_exchanging : ∃ u,
    Machine.run? Machine.free (System.fresh .standard) handedRun = some handed ∧
    handed.Due (Machine.observe System.record (System.fresh .standard) handedRun) ⟨0, 5, [4]⟩ ∧
    handed.table.dispatchOn? 5 = some 0 ∧
    handed.step? 10 (.heard (shortReport .cbor 5) []) = some u ∧
    u = { handed with listener := .reply [Hid.errorPacket 5 .channelBusy] } := by
  have hrun : Machine.run? Machine.free (System.fresh .standard) handedRun = some handed := rfl
  have hdue : handed.Due (Machine.observe System.record (System.fresh .standard) handedRun)
      ⟨0, 5, [4]⟩ := by
    refine ⟨⟨[(0, .asked ⟨5, Command.cbor.toByte, [4]⟩)], 0, [(0, .tried 0 [4])], rfl, ?_⟩, rfl⟩
    rintro ⟨now, m, hm, -⟩
    cases List.mem_singleton.1 hm
  obtain ⟨hholds, -, hfurther⟩ := System.holds_channel_iff_relayed hrun rfl
  have hrelays : handed.Relays 0 := ⟨_, _, rfl, rfl⟩
  obtain ⟨u, hu, hbusy, -⟩ := hfurther 10 (shortReport .cbor 5) []
    ⟨5, Command.cbor.toByte, [5]⟩ rfl ⟨by decide, by decide, rfl⟩
  exact ⟨u, hrun, hdue, (hholds _ hdue).2 hrelays, hu, hbusy ⟨_, hdue, rfl, hrelays⟩⟩

/-- The request is cancelled and stopped; before its device has been asked to give it up, a further
request comes on its channel. -/
def furtherRun : List (Time × Event Unit) :=
  handedRun ++ [(10, .heard (shortReport .cancel 0) []), (10, .aborted 0),
    (20, .heard (shortReport .cbor 5) [])]

/-- **A cancelled request does not keep its channel**: the further request is accepted while the
host is still to be told that the one before was cancelled, and so the outcomes of two requests of
one channel are due. -/
theorem two_due_on_one_channel : ∃ t trace d,
    Machine.run? Machine.free (System.fresh .standard) furtherRun = some t ∧
    trace = Machine.observe System.record (System.fresh .standard) furtherRun ∧
    t.dispatch? 0 = some d ∧ d.stage = .cancelling () (.aborted .cancel) ∧
    (20, .accepted ⟨1, 5, [5]⟩) ∈ trace ∧
    t.Due trace ⟨0, 5, [4]⟩ ∧ t.Due trace ⟨1, 5, [5]⟩ := by
  have hsince : ¬ Abort.resync.Heard 5 [(0, .tried 0 [4]),
      (10, .asked ⟨5, Command.cancel.toByte, [0]⟩), (20, .asked ⟨5, Command.cbor.toByte, [5]⟩),
      (20, .accepted ⟨1, 5, [5]⟩)] := by
    rintro ⟨now, m, hm, -, his, -⟩
    simp only [List.mem_cons, Prod.mk.injEq, reduceCtorEq, and_false, Happening.asked.injEq,
      List.not_mem_nil, or_false, false_or] at hm
    rcases hm with ⟨-, rfl⟩ | ⟨-, rfl⟩
    · exact absurd his.2.2 (by decide)
    · exact absurd his.2.2 (by decide)
  have hnothing : ¬ Abort.resync.Heard 5 [] := by
    rintro ⟨now, m, hm, -⟩
    cases hm
  exact ⟨_, [(0, .asked ⟨5, Command.cbor.toByte, [4]⟩), (0, .accepted ⟨0, 5, [4]⟩),
    (0, .tried 0 [4]), (10, .asked ⟨5, Command.cancel.toByte, [0]⟩),
    (20, .asked ⟨5, Command.cbor.toByte, [5]⟩), (20, .accepted ⟨1, 5, [5]⟩)], _, rfl, rfl, rfl, rfl,
    by simp, ⟨⟨[_], 0, _, rfl, hsince⟩, rfl⟩, ⟨⟨[_, _, _, _, _], 20, [], rfl, hnothing⟩, rfl⟩⟩

end Ctap.Gateway
