import Ctap.Proofs.Hid.Reading

/-!
# Calls behind a HID link have their own answers

Whoever comes or goes, whatever the token does and whichever packet is sent, taken or lost, the
invariant is kept. So a call that ends well has the answer to its own request, after any run.

## Main results

* `Relay.Inv.step`, `Relay.Inv.run`: steps and runs keep the invariant.
* `Relay.returns_own_answer`: what a call returns is the answer to its own request.
-/

namespace Ctap.Hid

namespace Relay

variable {calm : Bool} {ahead : Nat} {s t : Relay}

/-! ### Steps that the call at work does not notice -/

/-- A call stands where it did, whoever waits and whatever is to be cancelled. -/
theorem Stands.congr {call : Option Call} (h : Stands calm ahead s call)
    (hstate : t.turns.state = s.turns.state) (hpeer : t.peer = s.peer)
    (hcurrent : t.current = s.current) (hown : t.own = s.own) : Stands calm ahead t call := by
  obtain ⟨⟨state, working, waiting⟩, peer, made, current, own, cancels⟩ := s
  obtain ⟨⟨_, working', waiting'⟩, _, made', _, _, cancels'⟩ := t
  cases hstate
  cases hpeer
  cases hcurrent
  cases hown
  have hopens {request : Request} {hs : ChannelId}
      (h : Opens ⟨⟨state, working, waiting⟩, peer, made, current, own, cancels⟩ request hs) :
      Opens ⟨⟨state, working', waiting'⟩, peer, made', current, own, cancels'⟩ request hs :=
    ⟨h.current, h.command, h.nonce, h.channel⟩
  have hgrants {hs : ChannelId} {w : Welcome} {behind : List Letter} (h : Grants calm
      ⟨⟨state, working, waiting⟩, peer, made, current, own, cancels⟩ hs w behind) : Grants calm
      ⟨⟨state, working', waiting'⟩, peer, made', current, own, cancels'⟩ hs w behind :=
    ⟨h.keeps, h.issued, h.quiet, h.free, h.inits, h.nonce, h.version, h.last⟩
  have hexchanges {request : Request} {c : ChannelId} (h : Exchanges calm
      ⟨⟨state, working, waiting⟩, peer, made, current, own, cancels⟩ request c) : Exchanges calm
      ⟨⟨state, working', waiting'⟩, peer, made', current, own, cancels'⟩ request c :=
    ⟨h.current, h.command, h.channel, h.inits, h.alone⟩
  have howns {request : Request} {c : ChannelId} {n : Nat}
      (h : Owns ⟨⟨state, working, waiting⟩, peer, made, current, own, cancels⟩ request c n) :
      Owns ⟨⟨state, working', waiting'⟩, peer, made', current, own, cancels'⟩ request c n :=
    ⟨h.own, h.taken⟩
  cases h with
  | idle => exact .idle
  | greeting opens expects owed => exact .greeting (hopens opens) expects owed
  | pending opens quiet mine others welcomes owed =>
    exact .pending (hopens opens) quiet mine others welcomes owed
  | greeted opens quiet mail others mine grants owed =>
    exact .greeted (hopens opens) quiet mail others mine (hgrants grants) owed
  | misled opens quiet rest nonce version other owed =>
    exact .misled (hopens opens) quiet rest nonce version other owed
  | welcomed opens quiet rest mine grants owed =>
    exact .welcomed (hopens opens) quiet rest mine (hgrants grants) owed
  | asking exchanges expects clean owed => exact .asking (hexchanges exchanges) expects clean owed
  | waiting exchanges owns debts response selective channel keepalives owed =>
    exact .waiting (hexchanges exchanges) (howns owns) debts response selective channel keepalives
      owed
  | answered exchanges owns debts answer selective channel rest message owed =>
    exact .answered (hexchanges exchanges) (howns owns) debts answer selective channel rest message
      owed
  | served current channel owns answer owed => exact .served current channel (howns owns) answer owed
  | failed current reason => exact .failed current reason

/-- Callers that come and go and packets that cancel are nothing to the call at work. -/
theorem Inv.aside (h : Inv calm ahead s) (hstate : t.turns.state = s.turns.state)
    (hpeer : t.peer = s.peer) (hcall : t.call? = s.call?) (hcurrent : t.current = s.current)
    (hown : t.own = s.own)
    (hwaiting : ∀ w ∈ t.turns.waiting,
      w.2.command.isRequest = true ∧ w.2.nonce.length = nonceSize)
    (hcancels : ∀ raw ∈ t.cancels, Token.isCancel raw = true)
    (hunspent : Unspent (t.made.map (·.nonce)) t.unsent s.peer) : Inv calm ahead t where
  packetSize := by rw [hpeer, hstate]; exact h.packetSize
  sound := by rw [hpeer]; exact h.sound
  waiting := hwaiting
  cancels := hcancels
  unspent := by rw [hpeer]; exact hunspent
  channel := by rw [hpeer, hstate]; exact h.channel
  ready := by rw [hpeer, hstate]; exact h.ready
  busy := by rw [hpeer, hstate]; exact h.busy
  stands := by rw [hcall]; exact h.stands.congr hstate hpeer hcurrent hown

/-- A caller that comes has a request to make, with a nonce of its own. -/
theorem Inv.arrive (h : Inv calm ahead s) {caller : Caller} {request : Request}
    (hpermits : permits calm s (.arrive caller request) = true)
    (hstep : s.step? (.arrive caller request) = some t) : Inv calm ahead t := by
  simp only [permits, Bool.and_eq_true, beq_iff_eq, Bool.not_eq_true', List.contains_eq_mem,
    decide_eq_false_iff_not] at hpermits
  obtain ⟨⟨hrequest, hnonce⟩, hnew⟩ := hpermits
  cases hstep
  refine h.aside rfl rfl rfl rfl rfl ?_ h.cancels ?_
  · intro w hw
    rcases List.mem_append.1 hw with hw | hw
    · exact h.waiting w hw
    · rw [List.mem_singleton] at hw
      rw [hw]
      exact ⟨hrequest, hnonce⟩
  · change Unspent ((s.made ++ [request]).map (·.nonce))
      (unsentBy s.call? ++ (s.turns.waiting ++ [(caller, request)]).map (·.2.nonce)) s.peer
    rw [List.map_append, List.map_append, ← List.append_assoc]
    exact h.unspent.arrive hnew

private theorem isCancel_of_cancellation {a : HidAuthenticator} {packets : List Bytes}
    (h : a.cancellation = .ok packets) : ∀ raw ∈ packets, Token.isCancel raw = true := by
  rw [HidAuthenticator.cancellation] at h
  split at h
  · rw [packetize] at h
    split_ifs at h with hsmall
    cases h
    intro raw hraw
    have hnil : Bytes.chunks (a.packetSize - continuationHeaderSize) [] = [] := by
      apply Bytes.chunks_nil
      simp only [initialHeaderSize, continuationHeaderSize] at hsmall ⊢
      omega
    rw [messagePackets, List.drop_nil, hnil, continuations, List.map_singleton,
      List.mem_singleton] at hraw
    rw [hraw, Token.isCancel, Packet.decode_encode_initial a.packetSize _ rfl]
    exact beq_self_eq_true _
  · cases h
    simp

theorem Inv.cancel (h : Inv calm ahead s) (hstep : s.step? .cancel = some t) : Inv calm ahead t := by
  obtain ⟨packets, hpackets, rfl⟩ := Session.step?_cancel hstep
  refine h.aside rfl rfl rfl rfl rfl h.waiting ?_ h.unspent
  intro raw hraw
  rcases List.mem_append.1 hraw with hraw | hraw
  · exact h.cancels raw hraw
  · rcases hpackets with hpackets | rfl
    · exact isCancel_of_cancellation hpackets raw hraw
    · cases hraw

theorem Inv.signal (h : Inv calm ahead s) (hstep : s.step? (.signal ()) = some t) :
    Inv calm ahead t := by
  obtain ⟨raw, rest, peer, hcancels, hhear, rfl⟩ := Session.step?_signal.1 hstep
  have hpackets := h.cancels
  rw [hcancels] at hpackets
  cases hhear
  refine h.aside rfl ?_ rfl rfl rfl h.waiting ?_ h.unspent
  · exact Token.hear_cancel (hpackets raw (List.mem_cons_self ..))
  · exact fun raw' hraw => hpackets raw' (List.mem_cons_of_mem _ hraw)

theorem Inv.unsignal (h : Inv calm ahead s) (hstep : s.step? .unsignal = some t) :
    Inv calm ahead t := by
  obtain ⟨raw, rest, hcancels, rfl⟩ := Session.step?_unsignal.1 hstep
  refine h.aside rfl rfl rfl rfl rfl h.waiting ?_ h.unspent
  intro raw' hraw
  apply h.cancels
  rw [hcancels]
  exact List.mem_cons_of_mem _ hraw

/-- A caller goes. If its call was at work, nobody is, and any number of answers may be ahead of the
next one. -/
theorem Inv.leave (h : Inv calm ahead s) {caller : Caller} (hstep : s.step? (.leave caller) = some t) :
    Inv calm ahead t ∧ (t.call? = none ∨ t.call? = s.call?) := by
  obtain ⟨ht, hworking⟩ := Session.step?_leave hstep
  have hwaiting : t.turns.waiting.Sublist s.turns.waiting := by
    rw [ht]
    exact List.filter_sublist
  have hwaiting' : ∀ w ∈ t.turns.waiting,
      w.2.command.isRequest = true ∧ w.2.nonce.length = nonceSize :=
    fun w hw => h.waiting w (hwaiting.subset hw)
  have hcancels : ∀ raw ∈ t.cancels, Token.isCancel raw = true := by
    rw [ht]
    exact h.cancels
  have hmade : t.made = s.made := by rw [ht]
  have hpeer : t.peer = s.peer := by rw [ht]
  have hstate : t.turns.state = s.turns.state := by rw [ht]; rfl
  split_ifs at hworking with hgone
  · have hafter : t.call? = none := by rw [Session.call?, hworking, Option.map_none]
    refine ⟨⟨?_, ?_, hwaiting', hcancels, ?_, ?_, ?_, ?_, ?_⟩, .inl hafter⟩
    · rw [hpeer, hstate]
      exact h.packetSize
    · rw [hpeer]
      exact h.sound
    · rw [hmade, hpeer, unsent, hafter]
      exact h.unspent.sublist ((hwaiting.map _).trans (List.sublist_append_right ..))
    · rw [hpeer, hstate]
      exact h.channel
    · rw [hpeer, hstate]
      exact h.ready
    · rw [hpeer, hstate]
      exact h.busy
    · rw [hafter]
      exact .idle
  · have hafter : t.call? = s.call? := by rw [Session.call?, Session.call?, hworking]
    refine ⟨h.aside hstate hpeer hafter (by rw [ht]) (by rw [ht]) hwaiting' hcancels ?_, .inr hafter⟩
    rw [hmade, unsent, hafter]
    exact h.unspent.sublist ((List.Sublist.refl _).append (hwaiting.map _))

/-- What the token does keeps the invariant. -/
theorem Inv.act (h : Inv calm ahead s) {act : Token.Act}
    (hpermits : permits calm s (.act act) = true) (hstep : s.step? (.act act) = some t) :
    Inv calm ahead t := by
  obtain ⟨q, hact, rfl⟩ := Session.step?_act.1 hstep
  have hcalm : calm = true → act.isCalm = true := by
    intro hcalm
    simpa only [permits, hcalm, Bool.not_true, Bool.false_or] using hpermits
  have hstands := h.stands_of_act hcalm hact
  have hsound := h.sound.act? hcalm hact
  cases hc : act.channel? with
  | none =>
    cases act with
    | greet w =>
      obtain ⟨c₀, n₀, inits, hinits, -, hq⟩ := Token.act?_greet hact
      refine ⟨?_, hsound, h.waiting, h.cancels, h.unspent.keep fun n => Token.knows_of_greet hact,
        fun c hc => ?_, fun c hc => ?_, ?_, hstands⟩
      · change q.packetSize = _
        rw [hq]
        exact h.packetSize
      · have hissued := h.channel c hc
        change c ∈ q.issued
        rw [hq]
        by_cases hbroadcast : c₀ = broadcast
        · simp only [if_pos hbroadcast]
          exact List.mem_append_left _ hissued
        · simp only [if_neg hbroadcast]
          exact hissued
      · have hnone := (h.ready c hc).2.1
        rw [hinits] at hnone
        cases hnone
      · intro hcalm c hpending
        change ¬ (q.ports c).Quiet at hpending
        rw [hq] at hpending
        exact h.busy hcalm c hpending
    | _ => cases hc
  | some c' =>
    have ht := h.sound.touches hc hact
    refine ⟨ht.packetSize.trans h.packetSize, hsound, h.waiting, h.cancels,
      h.unspent.keep fun n => ht.knows, fun c hc => ?_, fun c hc => ?_, fun hcalm c hpending => ?_,
      hstands⟩
    · change c ∈ q.issued
      rw [ht.issued]
      exact h.channel c hc
    · obtain ⟨hclean, hinits, -⟩ := h.ready c hc
      refine ⟨ht.clean hclean, ht.inits.trans hinits, fun hcalm => ?_⟩
      -- Where all is calm the ready channel is not busy, so that nothing was pending.
      have hbusy := h.busy hcalm c' ht.pending
      rw [hc] at hbusy
      cases hbusy
    · change ¬ (q.ports c).Quiet at hpending
      by_cases hcc' : c = c'
      · rw [hcc']
        exact h.busy hcalm c' ht.pending
      · rw [ht.ports c hcc'] at hpending
        exact h.busy hcalm c hpending

/-! ### Runs -/

/-- **Every step keeps the invariant**, and while somebody is at work also the number of answers to
INIT that came before its own. -/
theorem Inv.step (h : Inv calm ahead s) {e : Event} (hpermits : permits calm s e = true)
    (hstep : s.step? e = some t) :
    ∃ ahead', Inv calm ahead' t ∧ (s.turns.working ≠ none → ahead' = ahead) := by
  cases e with
  | arrive caller request => exact ⟨ahead, h.arrive hpermits hstep, fun _ => rfl⟩
  | start now caller =>
    obtain ⟨request, rest, hidle, -⟩ := Session.step?_start.1 hstep
    exact ⟨s.debt, h.start hstep, fun hbusy => absurd hidle hbusy⟩
  | write choice => exact ⟨ahead, h.write hstep, fun _ => rfl⟩
  | breakOff choice cause => exact ⟨ahead, h.breakOff hpermits hstep, fun _ => rfl⟩
  | lose cause => exact ⟨ahead, h.lose hpermits hstep, fun _ => rfl⟩
  | take => exact ⟨ahead, h.take hstep, fun _ => rfl⟩
  | fail cause => exact ⟨ahead, h.fail hpermits hstep, fun _ => rfl⟩
  | leave caller => exact ⟨ahead, (h.leave hstep).1, fun _ => rfl⟩
  | cancel => exact ⟨ahead, h.cancel hstep, fun _ => rfl⟩
  | signal choice => exact ⟨ahead, h.signal hstep, fun _ => rfl⟩
  | unsignal => exact ⟨ahead, h.unsignal hstep, fun _ => rfl⟩
  | act act => exact ⟨ahead, h.act hpermits hstep, fun _ => rfl⟩

theorem Inv.fresh (calm : Bool) (packetSize : Nat) : Inv calm 0 (fresh packetSize) where
  packetSize := rfl
  sound := by
    refine ⟨by simp [Relay.fresh, Session.fresh, Token.fresh], fun h => absurd rfl h,
      fun c hc => absurd ⟨rfl, rfl⟩ hc, fun c d hd => ?_, fun c raw hraw => ?_, fun i hi => ?_,
      fun raw hraw => ?_, fun raw hraw => ?_, fun c w hw => ?_⟩
    · cases hd
    · cases hraw
    · cases hi
    · cases hraw
    · cases hraw
    · cases hw
  waiting w hw := by cases hw
  cancels raw hraw := by cases hraw
  unspent := by
    refine ⟨List.nodup_nil, fun n hn => ?_, ?_⟩
    · cases hn
    · rintro n (hn | ⟨c, hc⟩ | ⟨c, w, hw, -⟩)
      · cases hn
      · cases hc
      · cases hw
  channel := by rintro c (hc | hc) <;> cases hc
  ready c hc := by cases hc
  busy _ c hc := absurd ⟨rfl, rfl⟩ hc
  stands := .idle

/-- **Every run keeps the invariant.** -/
theorem Inv.run (h : Inv calm ahead s) {events : List Event}
    (hrun : Session.run? (permits calm) s events = some t) : ∃ ahead', Inv calm ahead' t := by
  refine Session.run?_induction (P := fun s => ∃ ahead', Inv calm ahead' s) ?_ ⟨ahead, h⟩ hrun
  rintro u e v ⟨ahead', hu⟩ hpermits hstep
  obtain ⟨ahead'', hv, -⟩ := hu.step hpermits hstep
  exact ⟨ahead'', hv⟩

private theorem Stands.result {call : Call} (h : Stands calm ahead s (some call)) {payload : Bytes}
    (hmove : HidAuthenticator.move call = .stop (.ok payload)) : ∃ n request c,
      s.own = some n ∧ s.current = some request ∧
      s.peer.requests[n]? = some (c, request.command.toByte, request.payload) ∧
      s.peer.answers n = some (.message payload) := by
  cases h with
  | served current channel owns answer owed =>
    cases hmove
    exact ⟨_, _, _, owns.own, current, owns.taken, answer⟩
  | failed current reason => cases hmove
  | _ => cases hmove

/-- **No call returns the answer to another request.** After any run, in which callers come and are
dropped at any point and the link may fail at any packet, a call that has ended well made the request
that the token took last from it, and returns the answer that the token gave to that request. -/
theorem returns_own_answer {packetSize : Nat} {events : List Event}
    (hrun : Session.run? (permits false) (Relay.fresh packetSize) events = some t) {payload : Bytes}
    (hresult : t.result? = some (.ok payload)) : ∃ n request c,
      t.own = some n ∧ t.current = some request ∧
      t.peer.requests[n]? = some (c, request.command.toByte, request.payload) ∧
      t.peer.answers n = some (.message payload) := by
  obtain ⟨ahead, hinv⟩ := (Inv.fresh false packetSize).run hrun
  obtain ⟨call, hcall, hmove⟩ := Session.result?_eq_some.1 hresult
  have hstands := hinv.stands
  rw [hcall] at hstands
  exact hstands.result hmove

/-- A welcome that grants a channel. -/
def welcome (nonce : Bytes) (channel : ChannelId) : Welcome := ⟨nonce, channel, 2, [1, 0, 0], 4⟩

/-- A call is dropped after its request was answered, when the answer has not gone out, and another
caller comes. -/
def droppedBeforeAnswer : List Event :=
  [.arrive 1 ⟨.cbor, [1], [1, 1, 1, 1, 1, 1, 1, 1]⟩, .start 0 1, .write (),
    .act (.greet (welcome [1, 1, 1, 1, 1, 1, 1, 1] 1)), .take, .write (),
    .act (.answer 1 (.message [0, 1])), .leave 1, .arrive 2 ⟨.cbor, [2], [2, 2, 2, 2, 2, 2, 2, 2]⟩]

/-- The answer goes out while the other caller begins. It is passed over, and the call gets its
own. -/
theorem returns_own_answer_after_drop : ∃ t,
    Session.run? (permits false) (Relay.fresh 64) (droppedBeforeAnswer ++
      [.start 7000 2, .act (.emit 1), .write (),
        .act (.greet (welcome [2, 2, 2, 2, 2, 2, 2, 2] 1)), .take, .take, .write (),
        .act (.answer 1 (.message [0, 2])), .act (.emit 1), .take]) = some t ∧
    t.result? = some (.ok [0, 2]) ∧ ∃ n request c,
      t.own = some n ∧ t.current = some request ∧
      t.peer.requests[n]? = some (c, request.command.toByte, request.payload) ∧
      t.peer.answers n = some (.message [0, 2]) := by
  have hrun : Session.run? (permits false) (Relay.fresh 64) (droppedBeforeAnswer ++
      [.start 7000 2, .act (.emit 1), .write (),
        .act (.greet (welcome [2, 2, 2, 2, 2, 2, 2, 2] 1)), .take, .take, .write (),
        .act (.answer 1 (.message [0, 2])), .act (.emit 1), .take]) = some _ := rfl
  exact ⟨_, hrun, rfl, returns_own_answer hrun rfl⟩

end Relay

end Ctap.Hid
