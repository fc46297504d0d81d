import Ctap.Proofs.Hid.Ownership

/-!
# Calls behind a HID link after others were dropped

Where the link does not fail and requests are answered with messages, the next call that stays gets
the answer to its own request, if it finds no answer to INIT ahead of its own. What a dropped request
has left is passed over by the handshake, but the answer to the INIT of a call that was dropped is
taken for the answer to this one: it has another nonce, and the call fails.

## Main definitions

* `Relay.Exhausted`: nothing is left that the call at work could get.

## Main results

* `Relay.exists_exhausted`: a call that stays can always get all that there is for it.
* `Relay.answered_iff_none_owed`: when the next call that stays is answered.
-/

namespace Ctap.Hid

namespace Token

variable {p q : Token}

/-! ### A token can do all that is left to do -/

private theorem exists_free (h : p.issued.length < UInt32.size - 1) :
    ∃ c, c ≠ broadcast ∧ c ∉ p.issued := by
  obtain ⟨k, hk, hnot⟩ : ∃ k < UInt32.size - 1, k ∉ p.issued.map UInt32.toNat := by
    by_contra hall
    push Not at hall
    have hsubset : List.range (UInt32.size - 1) ⊆ p.issued.map UInt32.toNat := by
      intro k hk
      exact hall k (List.mem_range.1 hk)
    have hle := List.nodup_range.length_le_of_subset hsubset
    rw [List.length_range, List.length_map] at hle
    omega
  have hto : (UInt32.ofNat k).toNat = k :=
    UInt32.toNat_ofNat_of_lt' (Nat.lt_of_lt_of_le hk (by decide))
  refine ⟨UInt32.ofNat k, fun hbroadcast => ?_, fun hmem => hnot ?_⟩
  · rw [hbroadcast] at hto
    have hlast : broadcast.toNat = UInt32.size - 1 := rfl
    omega
  · rw [← hto]
    exact List.mem_map_of_mem hmem

end Token

namespace Relay

open Session (staying Leads)

variable {calm : Bool} {ahead : Nat} {s t : Relay} {caller : Caller}

/-- Whether nothing is left that the call at work could get: it does not write, and if it reads, all
that the token has to answer is answered and was taken. -/
def Exhausted (t : Relay) : Prop :=
  t.writing? = none ∧ (t.reading?.isSome → t.peer.front = [] ∧ t.peer.mail = [] ∧
    t.peer.inits = [] ∧ ∀ c, (t.peer.ports c).Quiet)

/-! ### The packet size -/

private theorem packetSize_afterExchange (a : HidAuthenticator) (c : ChannelId) (x : Exchange) :
    (a.afterExchange c x).1.packetSize = a.packetSize := by
  rcases x with _ | _ | (_ | _) <;> rfl

private theorem packetSize_dispatch (a : HidAuthenticator) (c : ChannelId) (request : Request) :
    (a.dispatch c request).1.packetSize = a.packetSize :=
  packetSize_afterExchange ..

private theorem packetSize_afterHandshake (a : HidAuthenticator) (request : Request) (h : Handshake) :
    (a.afterHandshake request h).1.packetSize = a.packetSize := by
  rw [HidAuthenticator.afterHandshake]
  split
  · exact packetSize_dispatch ..
  · rfl
  · rfl

private theorem packetSize_engage (a : HidAuthenticator) (request : Request) :
    (a.engage request).1.packetSize = a.packetSize := by
  rw [HidAuthenticator.engage]
  split
  · exact packetSize_dispatch ..
  · exact packetSize_afterHandshake ..
  · exact packetSize_afterHandshake ..

private theorem packetSize_sent (a : HidAuthenticator) (call : Call) (r : Except Link.Error Unit) :
    (a.sent call r).1.packetSize = a.packetSize := by
  cases call with
  | opening => exact packetSize_afterHandshake ..
  | exchanging => exact packetSize_afterExchange ..
  | ended => rfl

private theorem packetSize_received (a : HidAuthenticator) (call : Call)
    (r : Except Link.Error Bytes) : (a.received call r).1.packetSize = a.packetSize := by
  cases call with
  | opening => exact packetSize_afterHandshake ..
  | exchanging => exact packetSize_afterExchange ..
  | ended => rfl

private theorem packetSize_step {e : Event} (hstep : s.step? e = some t) :
    t.turns.state.packetSize = s.turns.state.packetSize := by
  cases e with
  | arrive =>
    cases hstep
    rfl
  | start =>
    obtain ⟨request, rest, -, -, rfl⟩ := Session.step?_start.1 hstep
    exact packetSize_engage ..
  | write =>
    obtain ⟨call, packet, peer, -, -, rfl⟩ := Session.step?_write.1 hstep
    exact packetSize_sent ..
  | breakOff =>
    obtain ⟨call, packet, peer, -, -, rfl⟩ := Session.step?_breakOff.1 hstep
    exact packetSize_sent ..
  | lose =>
    obtain ⟨call, packet, -, rfl⟩ := Session.step?_lose.1 hstep
    exact packetSize_sent ..
  | take =>
    obtain ⟨call, packet, peer, -, -, rfl⟩ := Session.step?_take.1 hstep
    exact packetSize_received ..
  | fail =>
    obtain ⟨call, -, rfl⟩ := Session.step?_fail.1 hstep
    exact packetSize_received ..
  | leave =>
    cases hstep
    rfl
  | cancel =>
    obtain ⟨packets, -, rfl⟩ := Session.step?_cancel hstep
    rfl
  | signal =>
    obtain ⟨packet, rest, peer, -, -, rfl⟩ := Session.step?_signal.1 hstep
    rfl
  | unsignal =>
    obtain ⟨packet, rest, -, rfl⟩ := Session.step?_unsignal.1 hstep
    rfl
  | act =>
    obtain ⟨peer, -, rfl⟩ := Session.step?_act.1 hstep
    rfl

/-! ### A caller that is served -/

/-- A caller is served: its call is at work with a request that fits, and so many answers to INIT
came before its own. -/
structure Serving (caller : Caller) (request : Request) (ahead : Nat) (s : Relay) : Prop where
  inv : Inv true ahead s
  working : ∃ w, s.turns.working = some w ∧ w.caller = caller
  current : s.current = some request
  fits : ¬ Refused s.turns.state.packetSize request

variable {request : Request}

/-- **While a caller is served no answer to INIT comes before its own.** -/
theorem Serving.step (h : Serving caller request ahead s) {e : Event}
    (hpermits : staying (permits true) caller s e = true) (hstep : s.step? e = some t) :
    Serving caller request ahead t := by
  obtain ⟨w, hw, hcaller⟩ := h.working
  obtain ⟨hworking, hcurrent⟩ := Session.working_of_staying hpermits hstep hw hcaller
  simp only [staying, Bool.and_eq_true] at hpermits
  obtain ⟨ahead', hinv, hahead⟩ := h.inv.step hpermits.1 hstep
  rw [hahead (by rw [hw]; exact Option.some_ne_none w)] at hinv
  refine ⟨hinv, hworking, hcurrent.trans h.current, ?_⟩
  rw [packetSize_step hstep]
  exact h.fits

theorem Serving.leads (h : Serving caller request ahead s)
    (hleads : Leads (staying (permits true) caller) s t) : Serving caller request ahead t := by
  obtain ⟨events, hrun⟩ := hleads
  refine Session.run?_induction (P := Serving caller request ahead) ?_ h hrun
  intro u e v hu hpermits hstep
  exact hu.step hpermits hstep

theorem Serving.call (h : Serving caller request ahead s) : ∃ call, s.call? = some call := by
  obtain ⟨w, hw, -⟩ := h.working
  exact ⟨w.call, by rw [Session.call?, hw, Option.map_some]⟩

/-- A caller whose request fits is served from the time it gets its turn. -/
theorem Serving.start (h : Inv true ahead s) {now : Time} {rest : List (Caller × Request)}
    (hnext : s.turns.waiting = (caller, request) :: rest)
    (hfits : ¬ Refused s.turns.state.packetSize request)
    (hstep : s.step? (.start now caller) = some t) : Serving caller request s.debt t := by
  obtain ⟨request', rest', -, hwaiting, ht⟩ := Session.step?_start.1 hstep
  rw [hnext] at hwaiting
  cases hwaiting
  refine ⟨h.start hstep, ⟨_, by rw [ht], rfl⟩, by rw [ht], ?_⟩
  rwa [packetSize_step hstep]

/-- Where a call stands that has all that it can get: it has its answer, or it has failed. -/
private theorem Serving.stands_of_exhausted (h : Serving caller request ahead s)
    (hexhausted : Exhausted s) :
    (ahead = 0 ∧ ∃ n c payload, s.own = some n ∧
      s.peer.requests[n]? = some (c, request.command.toByte, request.payload) ∧
      s.peer.answers n = some (.message payload) ∧ s.result? = some (.ok payload)) ∨
    0 < ahead ∧ s.result? = some (.error (.link .nonceMismatch)) := by
  obtain ⟨hwriting, hreading⟩ := hexhausted
  obtain ⟨call, hcall⟩ := h.call
  have hwrites {raw : Bytes} : HidAuthenticator.move call ≠ .send raw := fun hmove => by
    rw [Session.writing?_eq_some.2 ⟨hcall, hmove⟩] at hwriting
    cases hwriting
  have hreads (hmove : HidAuthenticator.move call = .receive) :
      s.peer.front = [] ∧ s.peer.mail = [] ∧ s.peer.inits = [] ∧ ∀ c, (s.peer.ports c).Quiet :=
    hreading (by rw [Session.reading?_eq_some.2 ⟨hcall, hmove⟩]; rfl)
  have hstands := h.inv.stands
  rw [hcall] at hstands
  cases hstands with
  | greeting => exact absurd rfl hwrites
  | asking => exact absurd rfl hwrites
  -- Whatever the call waits for would have to be pending or on its way.
  | pending opens quiet mine others welcomes owed =>
    rw [(hreads rfl).2.2.1] at mine
    simp at mine
  | greeted opens quiet mail others mine grants owed =>
    rw [(hreads rfl).2.1] at mail
    simp at mail
  | misled opens quiet rest nonce version other owed =>
    rw [(hreads rfl).1] at rest
    cases rest
  | welcomed opens quiet rest mine grants owed =>
    rw [(hreads rfl).1] at rest
    cases rest
  | waiting exchanges owns debts response selective channel keepalives owed =>
    rw [((hreads rfl).2.2.2 _).1] at debts
    cases debts
  | @answered request' c n r a exchanges owns debts answer selective channel rest message owed =>
    obtain ⟨hfront, hmail, -, hquiet⟩ := hreads rfl
    have hqueued : s.peer.queued c = [] := by
      rw [Token.queued, Token.inbox, hfront, hmail]
      rfl
    rw [hqueued, (hquiet c).2] at rest
    cases a <;> cases rest
  | @served request' c n payload current channel owns answer owed =>
    rw [h.current] at current
    cases current
    refine .inl ⟨owed, n, c, payload, owns.own, owns.taken, answer, ?_⟩
    exact Session.result?_eq_some.2 ⟨_, hcall, rfl⟩
  | failed current reason =>
    rw [h.current] at current
    cases current
    rcases reason rfl with ⟨rfl, hahead⟩ | hrefused
    · exact .inr ⟨hahead, Session.result?_eq_some.2 ⟨_, hcall, rfl⟩⟩
    · exact absurd hrefused h.fits

private theorem Serving.not_served (h : Serving caller request ahead s) (hahead : 0 < ahead)
    (payload : Bytes) : s.result? ≠ some (.ok payload) := by
  intro hresult
  obtain ⟨call, hcall, hmove⟩ := Session.result?_eq_some.1 hresult
  have hstands := h.inv.stands
  rw [hcall] at hstands
  cases hstands with
  | served current channel owns answer owed => exact Nat.ne_of_gt hahead owed
  | _ => cases hmove

/-! ### A call can get all that there is for it -/

private theorem leads_act {act : Token.Act} {q : Token} (hcalm : act.isCalm = true)
    (hact : s.peer.act? act = some q) :
    Leads (staying (permits true) caller) s { s with peer := q } := by
  refine .step (e := .act act) ?_ (Session.step?_act.2 ⟨q, hact, rfl⟩)
  simp only [staying, permits, hcalm, Bool.or_true, Bool.and_self]

private theorem exists_greeted (caller : Caller) (s : Relay)
    (hsize : initialHeaderSize < s.peer.packetSize)
    (hroom : s.peer.inits ≠ [] → s.peer.issued.length + s.peer.inits.length < UInt32.size) :
    ∃ q, Leads (staying (permits true) caller) s { s with peer := q } ∧ q.inits = [] ∧
      q.ports = s.peer.ports ∧ q.packetSize = s.peer.packetSize := by
  induction hinits : s.peer.inits generalizing s with
  | nil => exact ⟨s.peer, .refl s, hinits, rfl, rfl⟩
  | cons first inits ih =>
    obtain ⟨channel, nonce⟩ := first
    have hbound := hroom (by simp [hinits])
    rw [hinits, List.length_cons] at hbound
    obtain ⟨free, hfree, hnew⟩ := Token.exists_free (p := s.peer) (by omega)
    obtain ⟨w, hw⟩ : ∃ w : Welcome, w =
      ⟨nonce, if channel = broadcast then free else channel, 2, [0, 0, 0], 0⟩ := ⟨_, rfl⟩
    have hsuits : s.peer.suits channel nonce w = true := by
      rw [Token.suits, hw]
      by_cases hbroadcast : channel = broadcast
      · simp [hbroadcast, hsize, hfree, hnew]
      · simp [hbroadcast, hsize]
    obtain ⟨q, hact⟩ : ∃ q, s.peer.act? (.greet w) = some q := by
      simp [Token.act?, hinits, hsuits]
    obtain ⟨channel', nonce', inits', hinits', -, hq⟩ := Token.act?_greet hact
    rw [hinits] at hinits'
    cases hinits'
    have hissued : q.issued.length ≤ s.peer.issued.length + 1 := by
      rw [hq]
      by_cases hbroadcast : channel = broadcast
      · simp [hbroadcast]
      · simp [hbroadcast]
    have hrest : q.inits = inits := by rw [hq]
    obtain ⟨q', hleads, hnone, hports, hsize'⟩ := ih { s with peer := q } (by rw [hq]; exact hsize)
      (fun _ => by
        change q.issued.length + q.inits.length < _
        rw [hrest]
        omega) hrest
    refine ⟨q', (leads_act rfl hact).trans hleads, hnone, ?_, ?_⟩
    · rw [hports, hq]
    · rw [hsize', hq]

private theorem exists_answered (caller : Caller) (c : ChannelId) (s : Relay)
    (hsize : initialHeaderSize < s.peer.packetSize) :
    ∃ q, Leads (staying (permits true) caller) s { s with peer := q } ∧ q.inits = s.peer.inits ∧
      (q.ports c).debts = [] ∧ ∀ c', c' ≠ c → q.ports c' = s.peer.ports c' := by
  induction hdebts : (s.peer.ports c).debts generalizing s with
  | nil => exact ⟨s.peer, .refl s, rfl, hdebts, fun _ _ => rfl⟩
  | cons first debts ih =>
    obtain ⟨n, command⟩ := first
    have hfits : (Answer.message []).fits s.peer.packetSize = true := by
      simp [Answer.fits, hsize]
    obtain ⟨q, hact⟩ : ∃ q, s.peer.act? (.answer c (.message [])) = some q := by
      simp [Token.act?, hdebts, hfits]
    obtain ⟨n', command', debts', hdebts', -, hq⟩ := Token.act?_answer hact
    rw [hdebts] at hdebts'
    cases hdebts'
    have hport : (q.ports c).debts = debts := by
      rw [hq]
      exact congrArg Port.debts (Token.withPort_self ..)
    obtain ⟨q', hleads, hinits, hnone, hothers⟩ := ih { s with peer := q }
      (by rw [hq]; exact hsize) hport
    refine ⟨q', (leads_act rfl hact).trans hleads, ?_, hnone, fun c' hc => ?_⟩
    · rw [hinits, hq]
      rfl
    · rw [hothers c' hc, hq]
      exact Token.withPort_other _ hc _

private theorem exists_emitted (caller : Caller) (c : ChannelId) (s : Relay) :
    ∃ q, Leads (staying (permits true) caller) s { s with peer := q } ∧ q.inits = s.peer.inits ∧
      (q.ports c).debts = (s.peer.ports c).debts ∧ (q.ports c).response = [] ∧
      ∀ c', c' ≠ c → q.ports c' = s.peer.ports c' := by
  induction hresponse : (s.peer.ports c).response generalizing s with
  | nil => exact ⟨s.peer, .refl s, rfl, rfl, hresponse, fun _ _ => rfl⟩
  | cons raw response ih =>
    obtain ⟨q, hact⟩ : ∃ q, s.peer.act? (.emit c) = some q := by
      simp [Token.act?, hresponse]
    obtain ⟨raw', response', hresponse', hq⟩ := Token.act?_emit hact
    rw [hresponse] at hresponse'
    cases hresponse'
    have hport : q.ports c = { s.peer.ports c with response } := by
      rw [hq]
      exact Token.withPort_self ..
    obtain ⟨q', hleads, hinits, hdebts, hnone, hothers⟩ := ih { s with peer := q }
      (by change (q.ports c).response = _; rw [hport])
    refine ⟨q', (leads_act rfl hact).trans hleads, ?_, ?_, hnone, fun c' hc => ?_⟩
    · rw [hinits, hq]
      rfl
    · rw [hdebts, hport]
    · rw [hothers c' hc, hq]
      exact Token.withPort_other _ hc _

/-- **The token can do all that it has to do**, and the call at work does not notice. -/
private theorem Inv.exists_settled (h : Inv true ahead s) (caller : Caller)
    (hsize : initialHeaderSize < s.peer.packetSize)
    (hroom : s.peer.inits ≠ [] → s.peer.issued.length + s.peer.inits.length < UInt32.size) :
    ∃ q, Leads (staying (permits true) caller) s { s with peer := q } ∧ q.inits = [] ∧
      ∀ c, (q.ports c).Quiet := by
  obtain ⟨q₁, hgreeted, hinits, hports, hsize₁⟩ := exists_greeted caller s hsize hroom
  by_cases hbusy : ∃ c, s.turns.state.channel = .busy c
  · -- Only the busy channel has anything pending.
    obtain ⟨c, hc⟩ := hbusy
    have hothers (c' : ChannelId) (hne : c' ≠ c) : (s.peer.ports c').Quiet := by
      by_contra hpending
      have hbusy := h.busy rfl c' hpending
      rw [hc] at hbusy
      cases hbusy
      exact hne rfl
    obtain ⟨q₂, hanswered, hinits₂, hdebts, hports₂⟩ := exists_answered caller c { s with peer := q₁ }
      (by rw [hsize₁]; exact hsize)
    obtain ⟨q₃, hemitted, hinits₃, hdebts₃, hresponse, hports₃⟩ :=
      exists_emitted caller c { s with peer := q₂ }
    refine ⟨q₃, hgreeted.trans (hanswered.trans hemitted), ?_, fun c' => ?_⟩
    · rw [hinits₃, hinits₂, hinits]
    · by_cases hc' : c' = c
      · rw [hc']
        exact ⟨hdebts₃.trans hdebts, hresponse⟩
      · rw [hports₃ c' hc', hports₂ c' hc', hports]
        exact hothers c' hc'
  · refine ⟨q₁, hgreeted, hinits, fun c => ?_⟩
    rw [hports]
    by_contra hpending
    exact hbusy ⟨c, h.busy rfl c hpending⟩

/-- How many phases a call still has before it. -/
def phase : Call → Nat
  | .opening _ ⟨_, .writing ..⟩ => 4
  | .opening _ ⟨_, .reading _⟩ => 3
  | .exchanging _ (.writing ..) => 2
  | .exchanging _ (.reading _) => 1
  | _ => 0

private theorem phase_dispatch (a : HidAuthenticator) (c : ChannelId) (request : Request) :
    phase (a.dispatch c request).2 ≤ 2 := by
  rw [HidAuthenticator.dispatch]
  generalize Exchange.transact c request.command request.payload a.packetSize = x
  rcases x with _ | _ | (_ | _) <;> simp [HidAuthenticator.afterExchange, phase]

private theorem phase_received (a : HidAuthenticator) {call : Call}
    (hmove : HidAuthenticator.move call = .receive) (raw : Bytes) :
    phase (a.received call (.ok raw)).2 < phase call ∨
      HidAuthenticator.move (a.received call (.ok raw)).2 = .receive ∧
        phase (a.received call (.ok raw)).2 = phase call := by
  rcases call with ⟨request, nonce, _ | r | _⟩ | ⟨c, _ | r | _⟩ | result
  any_goals cases hmove
  · rw [HidAuthenticator.received_opening]
    rcases r.push raw with cause | ⟨next, _ | payload⟩
    · exact .inl (Nat.succ_pos _)
    · exact .inr ⟨rfl, rfl⟩
    · rcases hconclude : Handshake.conclude nonce (.ok payload) with cause | w
      · simp only [hconclude]
        exact .inl (Nat.succ_pos _)
      · simp only [hconclude]
        exact .inl (Nat.lt_succ_of_le (phase_dispatch ..))
  · rw [HidAuthenticator.received_exchanging]
    rcases r.push raw with cause | ⟨next, _ | payload⟩
    · exact .inl (Nat.succ_pos _)
    · exact .inr ⟨rfl, rfl⟩
    · exact .inl (Nat.succ_pos _)

private theorem next?_eq_none {p : Token} (h : p.next? = none) : p.front = [] ∧ p.mail = [] := by
  rw [Token.next?] at h
  split at h
  · cases h
  · exact ⟨‹_›, ‹_›⟩
  · rename_i letter mail _ _
    cases letter <;> cases h

private theorem exists_drained (caller : Caller) {call : Call} (hcall : s.call? = some call)
    (hmove : HidAuthenticator.move call = .receive) (hinits : s.peer.inits = [])
    (hquiet : ∀ c, (s.peer.ports c).Quiet) :
    ∃ t, Leads (staying (permits true) caller) s t ∧
      (Exhausted t ∨ ∃ call', t.call? = some call' ∧ phase call' < phase call) := by
  induction hn : s.peer.inbox.length using Nat.strongRecOn generalizing s call with
  | ind n ih =>
    have hreading : s.reading? = some call := Session.reading?_eq_some.2 ⟨hcall, hmove⟩
    rcases hnext : s.peer.next? with _ | ⟨raw, q⟩
    · obtain ⟨hfront, hmail⟩ := next?_eq_none hnext
      refine ⟨s, .refl s, .inl ⟨Session.writing?_eq_none hcall fun packet hsend => ?_,
        fun _ => ⟨hfront, hmail, hinits, hquiet⟩⟩⟩
      rw [show HidAuthenticator.move call = _ from hsend] at hmove
      cases hmove
    · obtain ⟨t, ht⟩ : ∃ t : Relay, t = { s with peer := q }.goOn
        (HidAuthenticator.received s.turns.state call (.ok raw)) := ⟨_, rfl⟩
      have hstep : s.step? .take = some t := Session.step?_take.2 ⟨_, _, _, hreading, hnext, ht⟩
      have hleads : Leads (staying (permits true) caller) s t := .step (e := .take) rfl hstep
      have hafter : t.call? = some (HidAuthenticator.received s.turns.state call (.ok raw)).2 := by
        rw [ht, Session.call?_goOn]
        exact congrArg (Option.map _) hcall
      have hinbox := Token.inbox_of_next? hnext
      obtain ⟨front, mail, hq⟩ := exists_of_next? hnext
      have hpeer : t.peer = q := by rw [ht]; rfl
      rcases phase_received s.turns.state hmove raw with hless | ⟨hmove', hsame⟩
      · exact ⟨t, hleads, .inr ⟨_, hafter, hless⟩⟩
      · have hshorter : t.peer.inbox.length < n := by
          rw [hpeer, ← hn, hinbox, List.length_cons]
          exact Nat.lt_succ_self _
        obtain ⟨u, hmore, hu⟩ := ih _ hshorter hafter hmove' (by rw [hpeer, hq]; exact hinits)
          (by rw [hpeer, hq]; exact hquiet) rfl
        rw [hsame] at hu
        exact ⟨u, hleads.trans hmore, hu⟩

private theorem exists_asked (caller : Caller) {c : ChannelId} {r : Reader} (rest : List Bytes)
    {raw : Bytes} (hcall : s.call? = some (.exchanging c (.writing raw rest r))) :
    ∃ t, Leads (staying (permits true) caller) s t ∧
      t.call? = some (.exchanging c (.reading r)) := by
  induction rest generalizing s raw with
  | nil =>
    have hw : s.writing? = some (.exchanging c (.writing raw [] r), raw) :=
      Session.writing?_eq_some.2 ⟨hcall, rfl⟩
    refine ⟨_, .step (e := .write ()) rfl (Session.step?_write.2 ⟨_, _, _, hw, rfl, rfl⟩), ?_⟩
    rw [Session.call?_goOn]
    exact congrArg (Option.map _) hcall
  | cons next rest ih =>
    have hw : s.writing? = some (.exchanging c (.writing raw (next :: rest) r), raw) :=
      Session.writing?_eq_some.2 ⟨hcall, rfl⟩
    have hafter : Session.call? ((s.handOver (s.peer.hear raw)).goOn
        (s.turns.state, .exchanging c (.writing next rest r))) =
          some (.exchanging c (.writing next rest r)) := by
      rw [Session.call?_goOn]
      exact congrArg (Option.map _) hcall
    obtain ⟨t, hmore, ht⟩ := ih hafter
    refine ⟨t, .trans (.step (e := .write ()) rfl ?_) hmore, ht⟩
    exact Session.step?_write.2 ⟨_, _, _, hw, rfl, rfl⟩

private theorem Inv.exists_greeting (h : Inv true ahead s) (caller : Caller) {nonce : Bytes} {r : Reader}
    (rest : List Bytes) {raw : Bytes} {request : Request}
    (hcall : s.call? = some (.opening request ⟨nonce, .writing raw rest r⟩)) :
    ∃ t, Leads (staying (permits true) caller) s t ∧
      t.call? = some (.opening request ⟨nonce, .reading r⟩) ∧
      t.peer.issued = s.peer.issued ∧ t.peer.inits.length = s.peer.inits.length + 1 := by
  induction rest generalizing s raw with
  | nil =>
    have hw : s.writing? = some (.opening request ⟨nonce, .writing raw [] r⟩, raw) :=
      Session.writing?_eq_some.2 ⟨hcall, rfl⟩
    obtain ⟨t, ht⟩ : ∃ t : Relay, t = (s.handOver (s.peer.hear raw)).goOn
      (s.turns.state, .opening request ⟨nonce, .reading r⟩) := ⟨_, rfl⟩
    have hstep : s.step? (.write ()) = some t := Session.step?_write.2 ⟨_, _, _, hw, rfl, ht⟩
    have hpeer : t.peer = s.peer.hear raw := by rw [ht]; rfl
    have hstands := h.stands
    rw [hcall] at hstands
    cases hstands with
    | greeting opens expects owed =>
      rcases Token.hear_expected expects with ⟨-, hq⟩ | ⟨next, more, intake, hnil, -⟩
      · refine ⟨t, .step (e := .write ()) rfl hstep, ?_, ?_, ?_⟩
        · rw [ht, Session.call?_goOn]
          exact congrArg (Option.map _) hcall
        · rw [hpeer, hq, Token.complete_init]
          rfl
        · rw [hpeer, hq, Token.complete_init, List.length_append, List.length_singleton]
      · cases hnil
  | cons next rest ih =>
    have hw : s.writing? = some (.opening request ⟨nonce, .writing raw (next :: rest) r⟩, raw) :=
      Session.writing?_eq_some.2 ⟨hcall, rfl⟩
    obtain ⟨t, ht⟩ : ∃ t : Relay, t = (s.handOver (s.peer.hear raw)).goOn
      (s.turns.state, .opening request ⟨nonce, .writing next rest r⟩) := ⟨_, rfl⟩
    have hstep : s.step? (.write ()) = some t := Session.step?_write.2 ⟨_, _, _, hw, rfl, ht⟩
    have hpeer : t.peer = s.peer.hear raw := by rw [ht]; rfl
    have hafter : t.call? = some (.opening request ⟨nonce, .writing next rest r⟩) := by
      rw [ht, Session.call?_goOn]
      exact congrArg (Option.map _) hcall
    have hstands := h.stands
    rw [hcall] at hstands
    cases hstands with
    | greeting opens expects owed =>
      rcases Token.hear_expected expects with ⟨hnil, -⟩ | ⟨next', more, intake, -, hq, -⟩
      · cases hnil
      · obtain ⟨u, hmore, hu, hissued, hinits⟩ := ih (h.write hstep) hafter
        rw [hpeer, hq] at hissued hinits
        exact ⟨u, .trans (.step (e := .write ()) rfl hstep) hmore, hu, hissued, hinits⟩

private theorem Inv.inits_of_phase (h : Inv true ahead s) {call : Call} (hcall : s.call? = some call)
    (hmove : HidAuthenticator.move call = .receive) (hphase : phase call ≤ 2) :
    s.peer.inits = [] := by
  have hstands := h.stands
  rw [hcall] at hstands
  cases hstands with
  | waiting exchanges => exact exchanges.inits
  | answered exchanges => exact exchanges.inits
  | pending => exact absurd hphase (by simp [phase])
  | greeted => exact absurd hphase (by simp [phase])
  | misled => exact absurd hphase (by simp [phase])
  | welcomed => exact absurd hphase (by simp [phase])
  | _ => cases hmove

private theorem packetSize_leads (hleads : Leads (staying (permits true) caller) s t) :
    t.turns.state.packetSize = s.turns.state.packetSize := by
  obtain ⟨events, hrun⟩ := hleads
  refine Session.run?_induction
    (P := fun t : Relay => t.turns.state.packetSize = s.turns.state.packetSize) ?_ rfl hrun
  intro u e v hu _ hstep
  rw [packetSize_step hstep, hu]

private theorem Inv.leads (h : Inv calm ahead s) (hleads : Leads (staying (permits calm) caller) s t) :
    ∃ ahead', Inv calm ahead' t := by
  obtain ⟨events, hrun⟩ := hleads
  refine Session.run?_induction (P := fun s => ∃ ahead', Inv calm ahead' s) ?_ ⟨ahead, h⟩ hrun
  rintro u e v ⟨ahead', hu⟩ hpermits hstep
  simp only [staying, Bool.and_eq_true] at hpermits
  obtain ⟨ahead'', hv, -⟩ := hu.step hpermits.1 hstep
  exact ⟨ahead'', hv⟩

/-- Whether there are channels left to grant to a call that needs one. -/
def HasRoom (s : Relay) (call : Call) : Prop :=
  phase call ≤ 2 ∨ s.peer.issued.length + s.peer.inits.length < UInt32.size - (phase call - 3)

private theorem Inv.exists_read (h : Inv true ahead s) (caller : Caller) {call : Call}
    (hcall : s.call? = some call) (hmove : HidAuthenticator.move call = .receive)
    (hsize : initialHeaderSize < s.peer.packetSize) (hroom : HasRoom s call) :
    ∃ t, Leads (staying (permits true) caller) s t ∧
      (Exhausted t ∨ ∃ call', t.call? = some call' ∧ phase call' < phase call) := by
  have hbound : s.peer.inits ≠ [] → s.peer.issued.length + s.peer.inits.length < UInt32.size := by
    intro hinits
    rcases hroom with hphase | hroom
    · exact absurd (h.inits_of_phase hcall hmove hphase) hinits
    · omega
  obtain ⟨q, hsettled, hinits, hquiet⟩ := h.exists_settled caller hsize hbound
  obtain ⟨t, hdrained, ht⟩ := exists_drained (s := { s with peer := q }) caller hcall hmove hinits hquiet
  exact ⟨t, hsettled.trans hdrained, ht⟩

/-- **A call that stays can always get all that there is for it**, as long as there are channels left
to grant. -/
private theorem Inv.exists_exhausted (h : Inv true ahead s) (caller : Caller) {call : Call}
    (hcall : s.call? = some call) (hsize : initialHeaderSize < s.peer.packetSize)
    (hroom : HasRoom s call) :
    ∃ t, Leads (staying (permits true) caller) s t ∧ Exhausted t := by
  induction hphase : phase call using Nat.strongRecOn generalizing s ahead call with
  | ind n ih =>
    -- The induction is on the phase of the call: each part of the way leads to an earlier one.
    have hgo {t : Relay} {call' : Call} (hleads : Leads (staying (permits true) caller) s t)
        (hcall' : t.call? = some call') (hless : phase call' < n) (hroom' : HasRoom t call') :
        ∃ u, Leads (staying (permits true) caller) s u ∧ Exhausted u := by
      obtain ⟨ahead', ht⟩ := h.leads hleads
      have hsize' : initialHeaderSize < t.peer.packetSize := by
        rw [ht.packetSize, packetSize_leads hleads, ← h.packetSize]
        exact hsize
      obtain ⟨u, hmore, hu⟩ := ih _ hless ht hcall' hsize' hroom' rfl
      exact ⟨u, hleads.trans hmore, hu⟩
    have hread (hmove : HidAuthenticator.move call = .receive) (hn : n ≤ 3) :
        ∃ u, Leads (staying (permits true) caller) s u ∧ Exhausted u := by
      obtain ⟨t, hleads, ht | ⟨call', hcall', hless⟩⟩ := h.exists_read caller hcall hmove hsize hroom
      · exact ⟨t, hleads, ht⟩
      · exact hgo hleads hcall' (hphase ▸ hless) (.inl (by omega))
    have hdone {result : Except Error Bytes} (hmove : HidAuthenticator.move call = .stop result) :
        ∃ u, Leads (staying (permits true) caller) s u ∧ Exhausted u := by
      refine ⟨s, .refl s, Session.writing?_eq_none hcall fun packet hsend => ?_,
        fun hreading => ?_⟩
      · rw [show HidAuthenticator.move call = _ from hsend] at hmove
        cases hmove
      · obtain ⟨call', hreading⟩ := Option.isSome_iff_exists.1 hreading
        obtain ⟨hcall', hmove'⟩ := Session.reading?_eq_some.1 hreading
        rw [hcall] at hcall'
        cases hcall'
        rw [show HidAuthenticator.move call = _ from hmove'] at hmove
        cases hmove
    rcases call with ⟨request, nonce, ⟨raw, rest, r⟩ | r | _⟩ | ⟨c, ⟨raw, rest, r⟩ | r | _⟩ | result
    · obtain ⟨t, hleads, hcall', hissued, hinits⟩ := h.exists_greeting caller rest hcall
      simp only [phase] at hphase
      refine hgo hleads hcall' (by rw [phase, ← hphase]; omega) (.inr ?_)
      rcases hroom with hfew | hroom
      · simp [phase] at hfew
      · simp only [phase, hissued, hinits] at hroom ⊢
        omega
    · exact hread rfl (by rw [← hphase]; simp [phase])
    · exact hdone rfl
    · obtain ⟨t, hleads, hcall'⟩ := exists_asked caller rest hcall
      simp only [phase] at hphase
      exact hgo hleads hcall' (by rw [phase, ← hphase]; omega) (.inl (by simp [phase]))
    · exact hread rfl (by rw [← hphase]; simp [phase])
    · exact hdone rfl
    · exact hdone rfl

/-- **The next call that stays is answered exactly if it finds no answer to INIT ahead of its own.**
After any run without failures, a caller whose turn it is begins its call, and whatever happens while
it stays, it can get all that there is for it, as long as there are channels left to grant. If no
answer to an INIT of a call before it is still to be read on the channel of its handshake, it then has
the answer to its own request. Otherwise it is never answered, and fails with the first of them. -/
theorem answered_iff_none_owed {packetSize : Nat} (hsize : initialHeaderSize < packetSize)
    {events : List Event}
    (hrun : Session.run? (permits true) (Relay.fresh packetSize) events = some s)
    {request : Request} {rest : List (Caller × Request)} (hidle : s.turns.working = none)
    (hnext : s.turns.waiting = (caller, request) :: rest)
    (hfits : request.payload.length ≤ maxPayload packetSize) (now : Time) :
    ∃ t, s.step? (.start now caller) = some t ∧
      ∀ u, Leads (staying (permits true) caller) t u →
        (u.peer.issued.length + u.peer.inits.length < UInt32.size - 1 →
          ∃ v, Leads (staying (permits true) caller) u v ∧ Exhausted v) ∧
        (s.debt = 0 → Exhausted u → ∃ n c payload, u.own = some n ∧
          u.peer.requests[n]? = some (c, request.command.toByte, request.payload) ∧
          u.peer.answers n = some (.message payload) ∧ u.result? = some (.ok payload)) ∧
        (0 < s.debt → (∀ payload, u.result? ≠ some (.ok payload)) ∧
          (Exhausted u → u.result? = some (.error (.link .nonceMismatch)))) := by
  obtain ⟨ahead, hinv⟩ := (Inv.fresh true packetSize).run hrun
  have hkept : s.turns.state.packetSize = packetSize := by
    refine Session.run?_induction (P := fun s : Relay => s.turns.state.packetSize = packetSize) ?_
      rfl hrun
    intro u e v hu _ hstep
    rw [packetSize_step hstep, hu]
  have hfits' : ¬ Refused s.turns.state.packetSize request := by
    rw [hkept, Refused, not_or]
    exact ⟨Nat.not_le.2 hsize, Nat.not_lt.2 hfits⟩
  obtain ⟨t, hstep⟩ : ∃ t, s.step? (.start now caller : Event) = some t :=
    ⟨_, Session.step?_start.2 ⟨request, rest, hidle, hnext, rfl⟩⟩
  refine ⟨t, hstep, fun u hleads => ?_⟩
  have hserving := (Serving.start hinv hnext hfits' hstep).leads hleads
  refine ⟨fun hroom => ?_, fun hdebt hexhausted => ?_, fun hdebt => ⟨?_, fun hexhausted => ?_⟩⟩
  · obtain ⟨call, hcall⟩ := hserving.call
    have hsize' : initialHeaderSize < u.peer.packetSize := by
      rw [hserving.inv.packetSize, packetSize_leads hleads, packetSize_step hstep, hkept]
      exact hsize
    refine hserving.inv.exists_exhausted caller hcall hsize' ?_
    by_cases hphase : phase call ≤ 2
    · exact .inl hphase
    · refine .inr ?_
      have hle : phase call ≤ 4 := by
        rcases call with ⟨_, _, _ | _ | _⟩ | ⟨_, _ | _ | _⟩ | _ <;> simp [phase]
      omega
  · rcases hserving.stands_of_exhausted hexhausted with ⟨-, hanswered⟩ | ⟨howed, -⟩
    · exact hanswered
    · exact absurd hdebt (Nat.ne_of_gt howed)
  · exact hserving.not_served hdebt
  · rcases hserving.stands_of_exhausted hexhausted with ⟨hnone, -⟩ | ⟨-, hfailed⟩
    · exact absurd hnone (Nat.ne_of_gt hdebt)
    · exact hfailed

/-- A call is dropped while it waits for the answer to INIT, which comes late, and another caller
comes. -/
def droppedInHandshake : List Event :=
  [.arrive 1 ⟨.cbor, [1], [1, 1, 1, 1, 1, 1, 1, 1]⟩, .start 0 1, .write (), .leave 1,
    .act (.greet (welcome [1, 1, 1, 1, 1, 1, 1, 1] 1)),
    .arrive 2 ⟨.cbor, [2], [2, 2, 2, 2, 2, 2, 2, 2]⟩]

/-- After a call that was dropped before its answer came, the next one is answered. -/
theorem answered_after_dropped_request : ∃ s t u,
    Session.run? (permits true) (Relay.fresh 64) droppedBeforeAnswer = some s ∧
    s.step? (.start 7000 2 : Event) = some t ∧ Leads (staying (permits true) 2) t u ∧ Exhausted u ∧
    ∃ n c payload, u.own = some n ∧ u.peer.requests[n]? = some (c, Command.cbor.toByte, [2]) ∧
      u.peer.answers n = some (.message payload) ∧ u.result? = some (.ok payload) := by
  have hrun : Session.run? (permits true) (Relay.fresh 64) droppedBeforeAnswer = some _ := rfl
  obtain ⟨t, hstep, hserved⟩ := answered_iff_none_owed (by decide) hrun rfl rfl (by decide) 7000
  have hroom : t.peer.issued.length + t.peer.inits.length < UInt32.size - 1 := by
    cases hstep
    decide
  obtain ⟨u, hleads, hexhausted⟩ := (hserved t (.refl t)).1 hroom
  exact ⟨_, t, u, hrun, hstep, hleads, hexhausted, (hserved u hleads).2.1 rfl hexhausted⟩

/-- After a call that was dropped in its handshake, the next one takes the late answer for its own
and fails. -/
theorem unanswered_after_dropped_handshake : ∃ s t,
    Session.run? (permits true) (Relay.fresh 64) droppedInHandshake = some s ∧
    Session.run? (staying (permits true) 2) s [.start 7000 2, .write (),
      .act (.greet (welcome [2, 2, 2, 2, 2, 2, 2, 2] 2)), .take] = some t ∧
    Exhausted t ∧ t.result? = some (.error (.link .nonceMismatch)) :=
  ⟨_, _, rfl, rfl, ⟨rfl, fun hreading => absurd hreading Bool.false_ne_true⟩, rfl⟩

end Relay

end Ctap.Hid
