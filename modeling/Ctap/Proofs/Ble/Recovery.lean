import Ctap.Proofs.Ble.Ownership

/-!
# Calls over BLE after others were dropped

The next call that stays gets the answer to its own request, and leaves nothing outstanding, if no
call before it was dropped in the middle of an answer. A call that was dropped there has taken the
header frame that the count still waits for: the next call discards its own answer in its place, and
reads on although nothing more will come. So do all calls after it.

## Main definitions

* `Relay.Exhausted`: nothing is left that the call at work could get.

## Main results

* `Relay.exists_exhausted`: a call that stays can always get all that there is for it.
* `Relay.answered_iff_none_cut`: when the next call that stays is answered.
-/

namespace Ctap.Ble.Relay

open Session (staying Leads)

variable {s t : Relay} {fates : List Fate} {caller : Caller}

/-- Whether nothing is left that the call at work could get: it does not write, and if it reads, all
requests are answered and all notifications were taken. -/
def Exhausted (t : Relay) : Prop :=
  t.writing? = none ∧ (t.reading?.isSome → t.peer.queue = [] ∧
    t.peer.requests.length ≤ t.peer.answers.length)

/-! ### A call can get all that there is for it -/

private theorem writing?_eq_none (h : ∀ frame rest, t.call? ≠ some (.writing frame rest)) :
    t.writing? = none := by
  by_contra hne
  obtain ⟨⟨call, packet⟩, hw⟩ := Option.ne_none_iff_exists'.1 hne
  obtain ⟨hcall, hmove⟩ := Session.writing?_eq_some.1 hw
  cases call with
  | writing frame rest => exact h frame rest hcall
  | _ => cases hmove

private theorem exists_written (rest : List Bytes) {frame : Bytes}
    (hcall : t.call? = some (.writing frame rest)) :
    ∃ u, Leads (staying permits caller) t u ∧ u.writing? = none := by
  induction rest generalizing t frame with
  | nil =>
    have hw : t.writing? = some (.writing frame [], frame) :=
      Session.writing?_eq_some.2 ⟨hcall, rfl⟩
    refine ⟨_, .step (e := .write ()) rfl (Session.step?_write.2 ⟨_, _, _, hw, rfl, rfl⟩), ?_⟩
    apply writing?_eq_none
    intro frame' rest' hcall'
    rw [Session.call?_goOn] at hcall'
    change Option.map _ t.call? = _ at hcall'
    rw [hcall] at hcall'
    cases hcall'
  | cons next rest ih =>
    have hw : t.writing? = some (.writing frame (next :: rest), frame) :=
      Session.writing?_eq_some.2 ⟨hcall, rfl⟩
    have hafter : Session.call? ((t.handOver (t.peer.hear frame)).goOn
        (t.turns.state, .writing next rest)) = some (.writing next rest) := by
      rw [Session.call?_goOn]
      exact congrArg (Option.map _) hcall
    obtain ⟨u, hmore, hu⟩ := ih hafter
    refine ⟨u, .trans (.step (e := .write ()) rfl ?_) hmore, hu⟩
    exact Session.step?_write.2 ⟨_, _, _, hw, rfl, rfl⟩

private theorem exists_answered (caller : Caller) (t : Relay) : ∃ u, Leads (staying permits caller) t u ∧
    u.writing? = t.writing? ∧ u.peer.requests.length ≤ u.peer.answers.length := by
  induction hn : t.peer.requests.length - t.peer.answers.length generalizing t with
  | zero => exact ⟨t, .refl t, rfl, by omega⟩
  | succ n ih =>
    have hopen : t.peer.answers.length < t.peer.requests.length := by omega
    obtain ⟨peer, hpeer⟩ : ∃ peer, peer = { t.peer with
      answers := t.peer.answers ++ [Answer.error 0]
      queue := t.peer.queue ++ (Answer.error 0).frames } := ⟨_, rfl⟩
    have hact : Peer.act? t.peer (.answer (.error 0)) = some peer := hpeer ▸ if_pos hopen
    have hless : ({ t with peer } : Relay).peer.requests.length -
        ({ t with peer } : Relay).peer.answers.length = n := by
      simp only [hpeer, List.length_append, List.length_singleton]
      omega
    obtain ⟨u, hmore, hu, hall⟩ := ih { t with peer } hless
    refine ⟨u, .trans (.step (e := .act (.answer (.error 0))) rfl ?_) hmore, hu, hall⟩
    exact Session.step?_act.2 ⟨peer, hact, rfl⟩

private theorem received_writes_nothing (a : BleAuthenticator) (stale : Bool) (reader : Reader)
    (r : Except Link.Error Bytes) (frame : Bytes) (rest : List Bytes) :
    (a.received (.reading stale reader) r).2 ≠ .writing frame rest := by
  have hanswered (result : Except Link.Error Bytes) :
      (a.answered stale result).2 ≠ .writing frame rest := by
    cases stale <;> simp [BleAuthenticator.answered, BleAuthenticator.readNext]
  cases r with
  | error cause => exact hanswered _
  | ok packet =>
    rw [BleAuthenticator.received]
    split
    · exact hanswered _
    · simp
    · exact hanswered _

private theorem exists_drained (caller : Caller) (hwriting : t.writing? = none)
    (hanswers : t.peer.requests.length ≤ t.peer.answers.length) :
    ∃ u, Leads (staying permits caller) t u ∧ Exhausted u := by
  induction hn : t.peer.queue.length generalizing t with
  | zero =>
    refine ⟨t, .refl t, hwriting, fun _ => ⟨List.length_eq_zero_iff.1 hn, hanswers⟩⟩
  | succ n ih =>
    rcases hreading : t.reading? with _ | call
    · refine ⟨t, .refl t, hwriting, fun hsome => ?_⟩
      rw [hreading] at hsome
      cases hsome
    · obtain ⟨hcall, hmove⟩ := Session.reading?_eq_some.1 hreading
      obtain ⟨frame, queue, hqueue⟩ := List.exists_cons_of_length_eq_add_one hn
      obtain ⟨stale, reader, rfl⟩ := exists_of_receive hmove
      obtain ⟨next, hnext⟩ : ∃ peer, t.peer.next? = some (frame, peer) :=
        ⟨_, Peripheral.next?_eq_some.2 ⟨queue, hqueue, rfl⟩⟩
      obtain ⟨u, hu⟩ : ∃ u : Relay, u = { t with peer := next }.goOn
        (Authenticator.received t.turns.state (.reading stale reader) (.ok frame)) := ⟨_, rfl⟩
      obtain ⟨queue', hqueue', hpeer⟩ := Peripheral.next?_eq_some.1 hnext
      rw [hqueue] at hqueue' hn
      cases hqueue'
      have hpeer' : u.peer = next := by rw [hu]; rfl
      have hwriting' : u.writing? = none := by
        apply writing?_eq_none
        intro frame' rest' hcall'
        rw [hu, Session.call?_goOn] at hcall'
        change Option.map _ t.call? = _ at hcall'
        rw [hcall] at hcall'
        exact received_writes_nothing _ _ _ _ _ _ (Option.some.inj hcall')
      obtain ⟨v, hmore, hv⟩ := ih hwriting' (by rw [hpeer', hpeer]; exact hanswers)
        (by rw [hpeer', hpeer]; exact Nat.succ.inj hn)
      refine ⟨v, .trans (.step (e := .take) rfl ?_) hmore, hv⟩
      exact Session.step?_take.2 ⟨_, _, _, hreading, hnext, hu⟩

/-- **A call that stays can always get all that there is for it.** -/
theorem exists_exhausted (caller : Caller) (t : Relay) :
    ∃ u, Leads (staying permits caller) t u ∧ Exhausted u := by
  have hwritten : ∃ u, Leads (staying permits caller) t u ∧ u.writing? = none := by
    rcases hw : t.writing? with _ | ⟨call, packet⟩
    · exact ⟨t, .refl t, hw⟩
    · obtain ⟨hcall, hmove⟩ := Session.writing?_eq_some.1 hw
      cases call with
      | writing frame rest => exact exists_written rest hcall
      | _ => cases hmove
  obtain ⟨u, htu, hu⟩ := hwritten
  obtain ⟨v, huv, hv, hall⟩ := exists_answered caller u
  obtain ⟨w, hvw, hw⟩ := exists_drained caller (hv.trans hu) hall
  exact ⟨w, htu.trans (huv.trans hvw), hw⟩

/-! ### A call that stays -/

private theorem packetSize_answered (a : BleAuthenticator) (stale : Bool)
    (result : Except Link.Error Bytes) : (a.answered stale result).1.packetSize = a.packetSize := by
  cases stale <;> rfl

private theorem packetSize_sent (a : BleAuthenticator) (call : Call) (r : Except Link.Error Unit) :
    (a.sent call r).1.packetSize = a.packetSize := by
  rcases call with ⟨frame, _ | ⟨next, rest⟩⟩ | _ | _ <;> rcases r with _ | ⟨⟨⟩⟩ <;> rfl

private theorem packetSize_received (a : BleAuthenticator) (call : Call)
    (r : Except Link.Error Bytes) : (a.received call r).1.packetSize = a.packetSize := by
  rcases call with _ | ⟨stale, reader⟩ | _
  · rfl
  · rcases r with cause | frame
    · exact packetSize_answered ..
    · rw [BleAuthenticator.received]
      split
      · exact packetSize_answered ..
      · rfl
      · exact packetSize_answered ..
  · rfl

private theorem packetSize_engage (a : BleAuthenticator) (request : Request) :
    (a.engage request).1.packetSize = a.packetSize := by
  rw [BleAuthenticator.engage]
  split <;> rfl

private theorem packetSize_step {e : Event} (hpermits : permits s e = true)
    (hstep : s.step? e = some t) : t.turns.state.packetSize = s.turns.state.packetSize := by
  cases e with
  | arrive =>
    cases hstep
    rfl
  | start =>
    obtain ⟨request, rest, -, -, rfl⟩ := Session.step?_start.1 hstep
    exact packetSize_engage ..
  | write =>
    obtain ⟨call, packet, peer, -, -, rfl⟩ := Session.step?_write.1 hstep
    exact packetSize_sent ..
  | breakOff => cases hpermits
  | lose => cases hpermits
  | take =>
    obtain ⟨call, packet, peer, -, -, rfl⟩ := Session.step?_take.1 hstep
    exact packetSize_received ..
  | fail => cases hpermits
  | leave =>
    cases hstep
    rfl
  | cancel =>
    obtain ⟨packets, -, rfl⟩ := Session.step?_cancel hstep
    rfl
  | signal =>
    obtain ⟨packet, rest, peer, -, -, rfl⟩ := Session.step?_signal.1 hstep
    rfl
  | unsignal =>
    obtain ⟨packet, rest, -, rfl⟩ := Session.step?_unsignal.1 hstep
    rfl
  | act =>
    obtain ⟨peer, -, rfl⟩ := Session.step?_act.1 hstep
    rfl

/-- A caller is served: its call is at work with a request that can be cut into frames, and so many
answers were cut short before. -/
structure Serving (caller : Caller) (request : Request) (cuts : Nat) (s : Relay)
    (fates : List Fate) : Prop where
  inv : Inv s fates
  cuts : fates.countP Fate.isCut = cuts
  working : ∃ w, s.turns.working = some w ∧ w.caller = caller
  current : s.current = some request
  frames : ∃ frames, packetize request.command request.payload s.turns.state.packetSize = .ok frames

variable {request : Request} {cuts : Nat}

/-- **While a caller is served no answer is cut short.** -/
theorem Serving.step (h : Serving caller request cuts s fates) {e : Event}
    (hpermits : staying permits caller s e = true) (hstep : s.step? e = some t) :
    Serving caller request cuts t (fates ++ fate s e t) := by
  obtain ⟨w, hw, hcaller⟩ := h.working
  obtain ⟨hworking, hcurrent⟩ := Session.working_of_staying hpermits hstep hw hcaller
  simp only [staying, Bool.and_eq_true] at hpermits
  have hcuts : (fate s e t).countP Fate.isCut = 0 := by
    have hnone (hfate : fate s e t = []) : (fate s e t).countP Fate.isCut = 0 := by rw [hfate]; rfl
    cases e with
    | arrive => exact hnone (h.inv.arrive hpermits.1 hstep).2
    | start => exact hnone (h.inv.start hstep).2
    | write => exact hnone (h.inv.write hstep).2
    | breakOff => cases hpermits.1
    | lose => cases hpermits.1
    | take => exact (h.inv.take hstep).2
    | fail => cases hpermits.1
    | leave caller' =>
      obtain ⟨ht, hleft⟩ := Session.step?_leave hstep
      have hother : caller ≠ caller' := (bne_iff_ne.1 hpermits.2).symm
      rw [hw, Option.any_some, if_neg (by simpa [hcaller] using hother), ← hw] at hleft
      apply hnone
      apply fate_eq_nil
      · exact Nat.le_of_eq (by rw [ht]; rfl)
      · exact Nat.le_of_eq (by rw [Session.call?, Session.call?, hleft])
    | cancel => exact hnone (h.inv.cancel hstep).2
    | signal => exact hnone (h.inv.signal hstep).2
    | unsignal => exact hnone (h.inv.unsignal hstep).2
    | act => exact hnone (h.inv.act hstep).2
  refine ⟨h.inv.step hpermits.1 hstep, ?_, hworking, hcurrent.trans h.current, ?_⟩
  · rw [List.countP_append, hcuts]
    exact h.cuts
  · rw [packetSize_step hpermits.1 hstep]
    exact h.frames

theorem Serving.leads (h : Serving caller request cuts s fates)
    (hleads : Leads (staying permits caller) s t) : ∃ fates, Serving caller request cuts t fates := by
  obtain ⟨events, hrun⟩ := hleads
  refine Session.run?_induction (P := fun s => ∃ fates, Serving caller request cuts s fates) ?_
    ⟨fates, h⟩ hrun
  rintro u e v ⟨fates, hu⟩ hpermits hstep
  exact ⟨_, hu.step hpermits hstep⟩

/-- If an answer was cut short, the call that is served has no result. -/
theorem Serving.result_of_cut (h : Serving caller request cuts s fates) (hcuts : 0 < cuts) :
    s.result? = none := by
  by_contra hne
  obtain ⟨result, hresult⟩ := Option.ne_none_iff_exists'.1 hne
  obtain ⟨call, hcall, hmove⟩ := Session.result?_eq_some.1 hresult
  obtain ⟨orphans, more, -, -, -, -, hstands⟩ := h.inv.queue
  have hexcess := h.inv.excess
  rw [hcall] at hstands hexcess
  cases hstands with
  | writing => cases hmove
  | awaiting => cases hmove
  | gathering => cases hmove
  | refused current own fault =>
    obtain ⟨frames, hframes⟩ := h.frames
    rw [h.current] at current
    cases current
    rw [hframes] at fault
    cases fault
  | served owns own answer settled =>
    -- All answers would have to be begun, and one more than there are.
    have hread_le := h.inv.read_le
    have hanswers_le := h.inv.answers_le
    rw [settled, h.cuts] at hexcess
    simp only [begun] at hexcess
    omega

/-- If no answer was cut short, the call that is served has its answer once it has all that it can
get. -/
theorem Serving.result_of_exhausted (h : Serving caller request 0 s fates)
    (hexhausted : Exhausted s) : ∃ n a, s.own = some n ∧
      s.peer.requests[n]? = some (request.command.toByte, request.payload) ∧
      s.peer.answers[n]? = some a ∧ s.result? = some (liftLink a.result) ∧
      s.turns.state.outstanding = 0 := by
  obtain ⟨hwriting, hreading⟩ := hexhausted
  obtain ⟨w, hw, -⟩ := h.working
  have hcall : s.call? = some w.call := by rw [Session.call?, hw, Option.map_some]
  obtain ⟨orphans, more, hall, hbacklog, -, -, hstands⟩ := h.inv.queue
  have hexcess := h.inv.excess
  rw [hcall] at hstands hexcess
  generalize w.call = call at hcall hstands hexcess
  cases hstands with
  | writing =>
    rw [Session.writing?_eq_some.2 ⟨hcall, rfl⟩] at hwriting
    cases hwriting
  | awaiting owns positive owed clean =>
    -- Nothing is on its way, so all answers were begun, and nothing is outstanding.
    obtain ⟨hqueue, hanswers⟩ := hreading (by rw [Session.reading?_eq_some.2 ⟨hcall, rfl⟩]; rfl)
    rw [hqueue] at hall
    obtain ⟨-, rfl⟩ := List.append_eq_nil_iff.1 hall.symm
    have hbegun : s.peer.answers.length ≤ s.peer.read := by
      by_contra hless
      rw [List.drop_eq_getElem_cons (Nat.not_le.1 hless)] at hbacklog
      exact hbacklog.ne_nil rfl
    rw [h.cuts] at hexcess
    simp only [begun] at hexcess
    omega
  | gathering owns positive owed some_read answer rest =>
    -- The continuations of the answer would have to be on their way.
    obtain ⟨hqueue, -⟩ := hreading (by rw [Session.reading?_eq_some.2 ⟨hcall, rfl⟩]; rfl)
    rw [hqueue] at hall
    obtain ⟨rfl, -⟩ := List.append_eq_nil_iff.1 hall.symm
    cases rest
  | refused current own fault =>
    obtain ⟨frames, hframes⟩ := h.frames
    rw [h.current] at current
    cases current
    rw [hframes] at fault
    cases fault
  | @served n a owns own answer settled =>
    obtain ⟨request', m, hcurrent, hown, -, hrequest⟩ := owns
    rw [h.current] at hcurrent
    cases hcurrent
    rw [own] at hown
    cases hown
    exact ⟨n, a, own, hrequest, answer, Session.result?_eq_some.2 ⟨_, hcall, rfl⟩, settled⟩

/-- A caller whose request fits is served from the time it gets its turn. -/
theorem Serving.start (h : Inv s fates) {now : Time} {rest : List (Caller × Request)}
    (hnext : s.turns.waiting = (caller, request) :: rest)
    (hfits : ∃ frames,
      packetize request.command request.payload s.turns.state.packetSize = .ok frames)
    (hstep : s.step? (.start now caller) = some t) :
    Serving caller request (fates.countP Fate.isCut) t fates := by
  refine ⟨(h.start hstep).1, rfl, ?_, ?_, ?_⟩
  · obtain ⟨_, _, -, -, ht⟩ := Session.step?_start.1 hstep
    exact ⟨_, by rw [ht], rfl⟩
  · obtain ⟨request', rest', -, hwaiting, ht⟩ := Session.step?_start.1 hstep
    rw [hnext] at hwaiting
    cases hwaiting
    rw [ht]
  · rwa [packetSize_step rfl hstep]

/-- **The next call that stays is answered exactly if no answer was cut short.** After any run, a
caller whose turn it is begins its call, and whatever happens while it stays, it can get all that
there is for it. If no call before it was dropped in the middle of an answer, it then has the answer
to its own request and nothing is outstanding. Otherwise it never has a result. -/
theorem answered_iff_none_cut {packetSize : Nat} {answerTimeout : Time}
    (hsize : validatePacketSize packetSize = .ok packetSize) {events : List Event}
    (hrun : Session.run? permits (Relay.fresh packetSize answerTimeout) events = some s)
    {rest : List (Caller × Request)} (hidle : s.turns.working = none)
    (hnext : s.turns.waiting = (caller, request) :: rest)
    (hfits : request.payload.length ≤ maxMessageSize) (now : Time) :
    ∃ t, s.step? (.start now caller) = some t ∧ ∀ u, Leads (staying permits caller) t u →
      (∃ v, Leads (staying permits caller) u v ∧ Exhausted v) ∧
      ((∀ f ∈ Session.observe fate (Relay.fresh packetSize answerTimeout) events,
          f.isCut = false) → Exhausted u → ∃ n a, u.own = some n ∧
        u.peer.requests[n]? = some (request.command.toByte, request.payload) ∧
        u.peer.answers[n]? = some a ∧ u.result? = some (liftLink a.result) ∧
        u.turns.state.outstanding = 0) ∧
      ((∃ f ∈ Session.observe fate (Relay.fresh packetSize answerTimeout) events,
          f.isCut = true) → u.result? = none) := by
  have hinv := (Inv.fresh packetSize answerTimeout).run hrun
  rw [List.nil_append] at hinv
  have hkept : s.turns.state.packetSize = packetSize := by
    refine Session.run?_induction (P := fun s : Relay => s.turns.state.packetSize = packetSize) ?_
      rfl hrun
    intro u e v hu hpermits hstep
    rw [packetSize_step hpermits hstep, hu]
  have hframes : ∃ frames,
      packetize request.command request.payload s.turns.state.packetSize = .ok frames := by
    rw [hkept, packetize, hsize]
    exact ⟨_, if_neg (Nat.not_lt.2 hfits)⟩
  obtain ⟨t, hstep⟩ : ∃ t, s.step? (.start now caller : Event) = some t :=
    ⟨_, Session.step?_start.2 ⟨request, rest, hidle, hnext, rfl⟩⟩
  refine ⟨t, hstep, fun u hleads => ⟨exists_exhausted caller u, ?_, ?_⟩⟩
  · intro hnone hexhausted
    obtain ⟨fates, hserving⟩ := (Serving.start hinv hnext hframes hstep).leads hleads
    rw [List.countP_eq_zero.2 fun f hf => by rw [hnone f hf]; exact Bool.false_ne_true] at hserving
    exact hserving.result_of_exhausted hexhausted
  · rintro ⟨f, hf, hcut⟩
    obtain ⟨fates, hserving⟩ := (Serving.start hinv hnext hframes hstep).leads hleads
    exact hserving.result_of_cut (List.countP_pos_iff.2 ⟨f, hf, hcut⟩)

/-- A call takes the header frame of its answer and is dropped, and another caller comes. -/
def droppedMidAnswer : List Event :=
  [.arrive 1 ⟨.msg, [1]⟩, .start 0 1, .write (), .act (.answer longAnswer), .take, .leave 1,
    .arrive 2 ⟨.msg, [2]⟩]

/-- After a call that was dropped before its answer came, the next one is answered. -/
theorem answered_after_early_drop : ∃ s t u,
    Session.run? permits (Relay.fresh 64 30000) droppedBeforeAnswer = some s ∧
    s.step? (.start 7000 2 : Event) = some t ∧ Leads (staying permits 2) t u ∧ Exhausted u ∧
    ∃ n a, u.own = some n ∧ u.peer.requests[n]? = some (Command.msg.toByte, [2]) ∧
      u.peer.answers[n]? = some a ∧ u.result? = some (liftLink a.result) ∧
      u.turns.state.outstanding = 0 := by
  have hrun : Session.run? permits (Relay.fresh 64 30000) droppedBeforeAnswer = some _ := rfl
  obtain ⟨t, hstep, hserved⟩ := answered_iff_none_cut rfl hrun rfl rfl (by decide) 7000
  obtain ⟨u, hleads, hexhausted⟩ := (hserved t (.refl t)).1
  exact ⟨_, t, u, hrun, hstep, hleads, hexhausted,
    (hserved u hleads).2.1 (by decide) hexhausted⟩

/-- After a call that was dropped in the middle of its answer, the next one takes all there is for
it and has no result. -/
theorem unanswered_after_drop_mid_answer : ∃ s t,
    Session.run? permits (Relay.fresh 64 30000) droppedMidAnswer = some s ∧
    Session.run? (staying permits 2) s
      [.start 7000 2, .write (), .act (.answer shortAnswer), .take, .take] = some t ∧
    Exhausted t ∧ t.result? = none := by
  refine ⟨_, _, rfl, rfl, ⟨rfl, fun _ => ⟨rfl, ?_⟩⟩, rfl⟩
  decide

end Ctap.Ble.Relay
