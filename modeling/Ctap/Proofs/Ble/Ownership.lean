import Ctap.Proofs.Ble.Peripheral

/-!
# Answers over BLE go to the calls that own them

Calls may be dropped at any time, between the frames of an answer as well as before it. What such a
call leaves behind is either a whole answer, or the continuations of one whose header frame it has
taken. An invariant relates these to the count of outstanding requests: each answer that was begun
is either the one that is being taken, or it was counted off, or its reader was dropped and it is
still counted. So the count never falls behind what is owed, and a call that ends has the answer to
its own request.

## Main definitions

* `Relay`: an authenticator with its callers and its peripheral, and `Relay.permits` what may happen
  there.
* `Fate`, `Relay.fate`: what becomes of the answers that were begun.
* `Relay.Inv`: the invariant.

## Main results

* `Relay.Inv.step`, `Relay.Inv.run`: every step and every run keeps the invariant.
* `Relay.result_is_own_answer`: results belong to the requests of their calls, and the count is
  kept.
-/

namespace Ctap.Ble

/-- An authenticator with its callers and its peripheral. -/
abbrev Relay : Type := Session BleAuthenticator Request Call Peripheral

/-- Whether a call is in the middle of an answer: one if so, and zero otherwise. -/
def begun : Option Call → Nat
  | some (.reading _ (.gathering ..)) => 1
  | _ => 0

/-- What becomes of an answer that was begun, with its number. -/
inductive Fate where
  | counted (answer : Nat)
  | cut (answer : Nat)
deriving DecidableEq

namespace Fate

/-- The number of the answer. -/
def answer : Fate → Nat
  | counted n | cut n => n

/-- Whether the reader was dropped. -/
def isCut : Fate → Bool
  | counted _ => false
  | cut _ => true

@[simp] theorem isCut_counted (n : Nat) : (counted n).isCut = false := rfl

@[simp] theorem isCut_cut (n : Nat) : (cut n).isCut = true := rfl

end Fate

namespace Relay

/-- What can happen on a BLE connection. -/
abbrev Event : Type := Session.Event Request Unit Peripheral.Act

/-- A connection that was just made. -/
def fresh (packetSize : Nat) (answerTimeout : Time) : Relay :=
  Session.fresh ⟨packetSize, answerTimeout, 0⟩ Peripheral.fresh

/-- What may happen: requests are made, and the link does not fail. Callers may go at any time. -/
def permits (_ : Relay) : Event → Bool
  | .arrive _ request => request.command.isRequest
  | .breakOff .. | .lose _ | .fail _ => false
  | _ => true

/-- What a step makes of the answer that was begun last: it is counted off, or the call that was in
the middle of it is gone. -/
def fate (s : Relay) (_ : Event) (t : Relay) : List Fate :=
  if t.turns.state.outstanding < s.turns.state.outstanding then [.counted (t.peer.read - 1)]
  else if begun t.call? < begun s.call? then [.cut (t.peer.read - 1)]
  else []

/-- The call at work has made the last request that the peripheral took. -/
def Owns (s : Relay) : Prop :=
  ∃ request n, s.current = some request ∧ s.own = some n ∧ n + 1 = s.peer.requests.length ∧
    s.peer.requests[n]? = some (request.command.toByte, request.payload)

/-- Where the call at work stands, if continuations of a begun answer come first. -/
inductive Stands (s : Relay) (orphans : List Bytes) : Option Call → Prop where
  | idle : Stands s orphans none
  /-- The peripheral expects what the call still writes. -/
  | writing {request : Request} {frame : Bytes} {rest : List Bytes}
    (current : s.current = some request) (own : s.own = none)
    (missing : s.peer.Expects (request.command.toByte, request.payload) frame rest) :
    Stands s orphans (some (.writing frame rest))
  /-- The call waits for an answer. If no other is owed, nothing is left of a begun one. -/
  | awaiting {stale : Bool} (owns : Owns s) (positive : 1 ≤ s.turns.state.outstanding)
    (owed : stale = decide (1 < s.turns.state.outstanding))
    (clean : stale = false → orphans = []) :
    Stands s orphans (some (.reading stale (.awaiting stale)))
  /-- The call is in the middle of an answer, and the continuations complete it. -/
  | gathering {stale : Bool} {total : Nat} {data : Bytes} {seq : UInt8} {a : Answer}
    (owns : Owns s) (positive : 1 ≤ s.turns.state.outstanding)
    (owed : stale = decide (1 < s.turns.state.outstanding)) (some_read : 1 ≤ s.peer.read)
    (answer : s.peer.answers[s.peer.read - 1]? = some a)
    (rest : (Reader.gathering total data seq).feed orphans = .ended a.result []) :
    Stands s orphans (some (.reading stale (.gathering total data seq)))
  | refused {request : Request} {cause : Link.Error} (current : s.current = some request)
    (own : s.own = none)
    (fault : packetize request.command request.payload s.turns.state.packetSize = .error cause) :
    Stands s orphans (some (.ended (.error (.link cause))))
  /-- The call has the answer to its request, and nothing is outstanding. -/
  | served {n : Nat} {a : Answer} (owns : Owns s) (own : s.own = some n)
    (answer : s.peer.answers[n]? = some a) (settled : s.turns.state.outstanding = 0) :
    Stands s orphans (some (.ended (liftLink a.result)))

/-- The invariant, given what became of the answers that were begun. -/
structure Inv (s : Relay) (fates : List Fate) : Prop where
  waiting : ∀ w ∈ s.turns.waiting, w.2.command.isRequest = true
  /-- Cancelling packets ask for requests to be given up. -/
  cancels : ∀ frame ∈ s.cancels, Peripheral.isCancel frame = true
  answers_le : s.peer.answers.length ≤ s.peer.requests.length
  read_le : s.peer.read ≤ s.peer.answers.length
  read : s.peer.read = fates.length + begun s.call?
  numbered : fates.map Fate.answer = List.range fates.length
  /-- Every request is outstanding until an answer is counted off. -/
  outstanding : s.turns.state.outstanding + fates.countP (!·.isCut) = s.peer.requests.length
  /-- What comes next are continuations of a begun answer, and then the other answers. -/
  queue : ∃ orphans more, s.peer.queue = orphans ++ more ∧
    Backlog (s.peer.answers.drop s.peer.read) more ∧
    (∀ frame ∈ orphans, continuesMessage frame = true) ∧
    (orphans ≠ [] → 0 < fates.countP Fate.isCut + begun s.call?) ∧ Stands s orphans s.call?

/-! ### Steps that the call at work does not notice -/

variable {s t : Relay} {fates : List Fate}

/-- Where nothing is counted off and nobody in the middle of an answer goes, no fate is settled. -/
theorem fate_eq_nil {e : Event}
    (hstate : s.turns.state.outstanding ≤ t.turns.state.outstanding)
    (hcall : begun s.call? ≤ begun t.call?) : fate s e t = [] := by
  rw [fate, if_neg (Nat.not_lt.2 hstate), if_neg (Nat.not_lt.2 hcall)]

theorem Owns.mono (h : Owns s) (hcurrent : t.current = s.current) (hown : t.own = s.own)
    (hrequests : t.peer.requests = s.peer.requests) : Owns t := by
  rwa [Owns, hcurrent, hown, hrequests]

/-- Answers that come later do not matter to where a call stands. -/
theorem Stands.mono {orphans : List Bytes} {call : Option Call} (h : Stands s orphans call)
    (hstate : t.turns.state = s.turns.state) (hcurrent : t.current = s.current)
    (hown : t.own = s.own) {answers : List Answer} {queue : List Bytes}
    (hpeer : t.peer = { s.peer with answers := s.peer.answers ++ answers, queue }) :
    Stands t orphans call := by
  have howns : Owns s → Owns t := (·.mono hcurrent hown (by rw [hpeer]))
  have hanswers {n : Nat} {a : Answer} (ha : s.peer.answers[n]? = some a) :
      t.peer.answers[n]? = some a := by
    rw [hpeer]
    exact (List.getElem?_append_left (List.getElem?_eq_some_iff.1 ha).1).trans ha
  cases h with
  | idle => exact .idle
  | writing current own missing =>
    refine .writing (hcurrent.trans current) (hown.trans own) ?_
    rw [hpeer]
    exact ⟨missing.noCancel, missing.command, missing.payload, missing.continues⟩
  | awaiting owns positive owed clean =>
    exact .awaiting (howns owns) (hstate ▸ positive) (hstate ▸ owed) clean
  | gathering owns positive owed some_read answer rest =>
    have hread : t.peer.read = s.peer.read := by rw [hpeer]
    exact .gathering (howns owns) (hstate ▸ positive) (hstate ▸ owed) (hread ▸ some_read)
      (hread ▸ hanswers answer) rest
  | refused current own fault =>
    exact .refused (hcurrent.trans current) (hown.trans own) (hstate ▸ fault)
  | served owns own answer settled =>
    exact .served (howns owns) (hown.trans own) (hanswers answer) (hstate ▸ settled)

/-- The invariant is kept where neither the count nor what the peripheral has taken and sent is
changed, if the call at work still stands where it should. -/
theorem Inv.turn (h : Inv s fates)
    (hstate : t.turns.state.outstanding = s.turns.state.outstanding)
    (hrequests : t.peer.requests = s.peer.requests) (hanswers : t.peer.answers = s.peer.answers)
    (hread : t.peer.read = s.peer.read) (hqueue : t.peer.queue = s.peer.queue)
    (hbegun : begun t.call? = begun s.call?)
    (hwaiting : ∀ w ∈ t.turns.waiting, w.2.command.isRequest = true)
    (hcancels : ∀ frame ∈ t.cancels, Peripheral.isCancel frame = true)
    (hstands : ∀ orphans, Stands s orphans s.call? → Stands t orphans t.call?) : Inv t fates := by
  obtain ⟨orphans, more, hall, hbacklog, hcontinues, horphans, hs⟩ := h.queue
  refine ⟨hwaiting, hcancels, ?_, ?_, ?_, h.numbered, ?_, ?_⟩
  · rw [hanswers, hrequests]
    exact h.answers_le
  · rw [hread, hanswers]
    exact h.read_le
  · rw [hread, hbegun]
    exact h.read
  · rw [hstate, hrequests]
    exact h.outstanding
  · rw [hanswers, hread, hqueue, hbegun]
    exact ⟨orphans, more, hall, hbacklog, hcontinues, horphans, hstands orphans hs⟩

/-- Callers that come and go and packets that cancel are nothing to the call at work. -/
theorem Inv.aside (h : Inv s fates) (hstate : t.turns.state = s.turns.state)
    (hcall : t.call? = s.call?) (hcurrent : t.current = s.current) (hown : t.own = s.own)
    (hpeer : t.peer = s.peer) (hwaiting : ∀ w ∈ t.turns.waiting, w.2.command.isRequest = true)
    (hcancels : ∀ frame ∈ t.cancels, Peripheral.isCancel frame = true) : Inv t fates := by
  refine h.turn (by rw [hstate]) (by rw [hpeer]) (by rw [hpeer]) (by rw [hpeer]) (by rw [hpeer])
    (by rw [hcall]) hwaiting hcancels ?_
  intro orphans hs
  have hsame : t.peer = { s.peer with
      answers := s.peer.answers ++ []
      queue := s.peer.queue } := by
    rw [hpeer, List.append_nil]
  rw [hcall]
  exact hs.mono hstate hcurrent hown hsame

/-- A caller that comes has a request to make. -/
theorem Inv.arrive (h : Inv s fates) {caller : Caller} {request : Request}
    (hrequest : request.command.isRequest = true) (hstep : s.step? (.arrive caller request) = some t) :
    Inv t fates ∧ fate s (.arrive caller request) t = [] := by
  cases hstep
  refine ⟨h.aside rfl rfl rfl rfl rfl ?_ h.cancels, fate_eq_nil (Nat.le_refl _) (Nat.le_refl _)⟩
  intro w hw
  rcases List.mem_append.1 hw with hw | hw
  · exact h.waiting w hw
  · rw [List.mem_singleton] at hw
    rw [hw]
    exact hrequest

/-- Cancelling packets are those of a message that asks for requests to be given up. -/
theorem isCancel_of_cancellation {a : BleAuthenticator} {packets : List Bytes}
    (h : a.cancellation = .ok packets) : ∀ frame ∈ packets, Peripheral.isCancel frame = true := by
  rw [BleAuthenticator.cancellation] at h
  split_ifs at h
  · cases h
    simp
  · obtain ⟨⟨hmin, -⟩, -, rfl⟩ := packetize_eq_ok.1 h
    have hpiece : 0 < a.packetSize - 1 :=
      Nat.sub_pos_of_lt (Nat.lt_of_lt_of_le (by decide) hmin)
    intro frame hframe
    rw [messageFrames, List.drop_nil, Bytes.chunks_nil hpiece, continuations,
      List.mem_singleton] at hframe
    rw [hframe]
    rfl

theorem Inv.cancel (h : Inv s fates) (hstep : s.step? .cancel = some t) :
    Inv t fates ∧ fate s .cancel t = [] := by
  obtain ⟨packets, hpackets, rfl⟩ := Session.step?_cancel hstep
  refine ⟨h.aside rfl rfl rfl rfl rfl h.waiting ?_, fate_eq_nil (Nat.le_refl _) (Nat.le_refl _)⟩
  intro frame hframe
  rcases List.mem_append.1 hframe with hframe | hframe
  · exact h.cancels frame hframe
  · rcases hpackets with hpackets | rfl
    · exact isCancel_of_cancellation hpackets frame hframe
    · cases hframe

theorem Inv.signal (h : Inv s fates) (hstep : s.step? (.signal ()) = some t) :
    Inv t fates ∧ fate s (.signal ()) t = [] := by
  obtain ⟨frame, rest, peer, hcancels, hhear, rfl⟩ := Session.step?_signal.1 hstep
  have hframes := h.cancels
  rw [hcancels] at hframes
  cases hhear
  refine ⟨h.aside rfl rfl rfl rfl ?_ h.waiting ?_, fate_eq_nil (Nat.le_refl _) (Nat.le_refl _)⟩
  · exact Peripheral.hear_cancel (hframes frame (List.mem_cons_self ..))
  · exact fun f hf => hframes f (List.mem_cons_of_mem _ hf)

theorem Inv.unsignal (h : Inv s fates) (hstep : s.step? .unsignal = some t) :
    Inv t fates ∧ fate s .unsignal t = [] := by
  obtain ⟨frame, rest, hcancels, rfl⟩ := Session.step?_unsignal.1 hstep
  refine ⟨h.aside rfl rfl rfl rfl rfl h.waiting ?_, fate_eq_nil (Nat.le_refl _) (Nat.le_refl _)⟩
  intro f hf
  apply h.cancels
  rw [hcancels]
  exact List.mem_cons_of_mem _ hf

/-- What the peripheral does comes behind what is on its way. -/
theorem Inv.act (h : Inv s fates) {act : Peripheral.Act} (hstep : s.step? (.act act) = some t) :
    Inv t fates ∧ fate s (.act act) t = [] := by
  obtain ⟨peer, hact, rfl⟩ := Session.step?_act.1 hstep
  refine ⟨?_, fate_eq_nil (Nat.le_refl _) (Nat.le_refl _)⟩
  obtain ⟨orphans, more, hqueue, hbacklog, hcontinues, horphans, hstands⟩ := h.queue
  -- In both cases answers and frames are added at the end.
  have hkeep {answers : List Answer} {queue : List Bytes}
      (hpeer : peer = { s.peer with answers := s.peer.answers ++ answers, queue }) :
      Stands { s with peer } orphans s.call? :=
    hstands.mono (t := { s with peer }) rfl rfl rfl hpeer
  cases act with
  | keepalive status =>
    simp only [Peer.act?, Peripheral.act?, Option.some.injEq] at hact
    subst hact
    refine ⟨h.waiting, h.cancels, h.answers_le, h.read_le, h.read, h.numbered, h.outstanding,
      orphans, more ++ [keepaliveFrame status], ?_, hbacklog.keepalive_last status, hcontinues,
      horphans, hkeep (by rw [List.append_nil])⟩
    rw [hqueue, List.append_assoc]
  | answer a =>
    have hopen : s.peer.answers.length < s.peer.requests.length := by
      by_contra hfull
      simp only [Peer.act?, Peripheral.act?, if_neg hfull, reduceCtorEq] at hact
    simp only [Peer.act?, Peripheral.act?, if_pos hopen, Option.some.injEq] at hact
    subst hact
    refine ⟨h.waiting, h.cancels, ?_, ?_, h.read, h.numbered, h.outstanding,
      orphans, more ++ a.frames, ?_, ?_, hcontinues, horphans, hkeep rfl⟩
    · rw [List.length_append, List.length_singleton]
      exact hopen
    · rw [List.length_append]
      exact Nat.le_trans h.read_le (Nat.le_add_right ..)
    · rw [hqueue, List.append_assoc]
    · rw [List.drop_append_of_le_length h.read_le]
      exact hbacklog.answer_last a

/-! ### Steps of the call at work -/

/-- A call begins with frames that the peripheral expects, or its request cannot be cut. -/
theorem engage_eq (a : BleAuthenticator) {request : Request}
    (hrequest : request.command.isRequest = true) (p : Peripheral) :
    (∃ cause, packetize request.command request.payload a.packetSize = .error cause ∧
        a.engage request = (a, .ended (.error (.link cause)))) ∨
      ∃ frame rest, a.engage request = (a, .writing frame rest) ∧
        p.Expects (request.command.toByte, request.payload) frame rest := by
  rcases hframes : packetize request.command request.payload a.packetSize with cause | frames
  · exact .inl ⟨cause, rfl, by rw [BleAuthenticator.engage, hframes]⟩
  · obtain ⟨frame, rest, rfl, hexpects⟩ := Peripheral.expects_packetize hrequest hframes p
    exact .inr ⟨frame, rest, by rw [BleAuthenticator.engage, hframes], hexpects⟩

theorem Inv.start (h : Inv s fates) {now : Time} {caller : Caller}
    (hstep : s.step? (.start now caller) = some t) :
    Inv t fates ∧ fate s (.start now caller) t = [] := by
  obtain ⟨request, rest, hnone, hwaiting, rfl⟩ := Session.step?_start.1 hstep
  have hidle : s.call? = none := by rw [Session.call?, hnone, Option.map_none]
  have hrequest : request.command.isRequest = true := h.waiting (caller, request) (by simp [hwaiting])
  have hlater : ∀ w ∈ rest, w.2.command.isRequest = true := by
    intro w hw
    apply h.waiting
    rw [hwaiting]
    exact List.mem_cons_of_mem _ hw
  simp only [Authenticator.engage]
  rcases engage_eq s.turns.state hrequest s.peer with
    ⟨cause, hfault, hengage⟩ | ⟨frame, rest', hengage, hexpects⟩
  · rw [hengage]
    refine ⟨h.turn rfl rfl rfl rfl rfl (by rw [hidle]; rfl) hlater h.cancels ?_,
      fate_eq_nil (Nat.le_refl _) (by rw [hidle]; exact Nat.zero_le _)⟩
    exact fun orphans _ => .refused rfl rfl hfault
  · rw [hengage]
    refine ⟨h.turn rfl rfl rfl rfl rfl (by rw [hidle]; rfl) hlater h.cancels ?_,
      fate_eq_nil (Nat.le_refl _) (by rw [hidle]; exact Nat.zero_le _)⟩
    exact fun orphans _ => .writing rfl rfl hexpects

private theorem countP_isCut_add (fates : List Fate) :
    fates.countP Fate.isCut + fates.countP (!·.isCut) = fates.length := by
  induction fates with
  | nil => rfl
  | cons fate fates ih =>
    rw [List.countP_cons, List.countP_cons, List.length_cons]
    cases fate <;> simp <;> omega

/-- What is counted as outstanding beyond what is owed are the answers that were cut short, and the
one that is being taken. -/
theorem Inv.excess (h : Inv s fates) : s.turns.state.outstanding + s.peer.read =
    s.peer.requests.length + fates.countP Fate.isCut + begun s.call? := by
  have hcuts := countP_isCut_add fates
  have hread := h.read
  have hout := h.outstanding
  omega

private theorem Stands.of_send {orphans : List Bytes} {call : Call} {frame : Bytes}
    (h : Stands s orphans (some call)) (hmove : BleAuthenticator.move call = .send frame) :
    ∃ request rest, call = .writing frame rest ∧ s.current = some request ∧ s.own = none ∧
      s.peer.Expects (request.command.toByte, request.payload) frame rest := by
  cases h with
  | writing current own missing =>
    cases hmove
    exact ⟨_, _, rfl, current, own, missing⟩
  | _ => cases hmove

/-- The call has written the last frame: the peripheral has the request, which counts as
outstanding, and the call waits for an answer. -/
private theorem Inv.write_last (h : Inv s fates) {request : Request} {frame : Bytes}
    (hcall : s.call? = some (.writing frame [])) (hcurrent : s.current = some request)
    (htaken : (s.peer.hear frame).requests =
      s.peer.requests ++ [(request.command.toByte, request.payload)])
    (ht : t = (s.handOver (s.peer.hear frame)).goOn s.turns.state.written) : Inv t fates := by
  obtain ⟨orphans, more, hall, hbacklog, hcontinues, horphans, -⟩ := h.queue
  have hpeer : t.peer = s.peer.hear frame := by rw [ht]; rfl
  have hout : t.turns.state.outstanding = s.turns.state.outstanding + 1 := by rw [ht]; rfl
  have hnumber : t.peer.requests.length = s.peer.requests.length + 1 := by
    rw [hpeer, htaken, List.length_append, List.length_singleton]
  have hafter : t.call? = some (.reading (decide (1 < t.turns.state.outstanding))
      (.awaiting (decide (1 < t.turns.state.outstanding)))) := by
    rw [ht, Session.call?_goOn]
    exact congrArg _ hcall
  have hown : t.own = some s.peer.requests.length := by
    have hmore : Peer.taken (s.peer.hear frame) ≠ Peer.taken s.peer := by
      rw [hpeer] at hnumber
      simp only [Peer.taken]
      omega
    rw [ht]
    simp only [Session.goOn, Session.handOver, if_neg hmore]
    rfl
  have hexcess := h.excess
  have hread := h.read
  have hread_le := h.read_le
  have hanswers_le := h.answers_le
  have houtstanding := h.outstanding
  rw [hcall] at hexcess hread horphans
  simp only [begun, Nat.add_zero] at hexcess hread horphans
  refine ⟨?_, ?_, ?_, ?_, ?_, h.numbered, ?_, orphans, more, ?_, ?_, hcontinues, ?_, ?_⟩
  · rw [ht]
    exact h.waiting
  · rw [ht]
    exact h.cancels
  · rw [hnumber, hpeer, Peripheral.hear_answers]
    omega
  · rw [hpeer, Peripheral.hear_answers, Peripheral.hear_read]
    exact hread_le
  · rw [hpeer, Peripheral.hear_read, hafter]
    exact hread
  · omega
  · rw [hpeer, Peripheral.hear_queue, hall]
  · rw [hpeer, Peripheral.hear_answers, Peripheral.hear_read]
    exact hbacklog
  · rw [hafter]
    exact horphans
  · rw [hafter]
    refine .awaiting ⟨request, s.peer.requests.length, ?_, hown, hnumber.symm, ?_⟩ ?_ rfl ?_
    · rw [ht]
      exact hcurrent
    · rw [hpeer, htaken, List.getElem?_concat_length]
    · omega
    · -- Nothing else is outstanding, so no answer was cut short.
      intro hlast
      rw [decide_eq_false_iff_not] at hlast
      by_contra hne
      have := horphans hne
      omega

theorem Inv.write (h : Inv s fates) (hstep : s.step? (.write ()) = some t) :
    Inv t fates ∧ fate s (.write ()) t = [] := by
  obtain ⟨call, frame, peer, hw, hhear, ht⟩ := Session.step?_write.1 hstep
  obtain ⟨hcall, hmove⟩ := Session.writing?_eq_some.1 hw
  obtain ⟨orphans, more, -, -, -, -, hstands⟩ := h.queue
  rw [hcall] at hstands
  obtain ⟨request, rest, rfl, hcurrent, hown, hexpects⟩ := hstands.of_send hmove
  cases hhear
  have hbegun : begun s.call? ≤ begun t.call? := by
    rw [hcall]
    exact Nat.zero_le _
  rcases Peripheral.hear_expected hexpects with ⟨rfl, htaken⟩ | ⟨next, rest', rfl, hsame, hnext⟩
  · refine ⟨h.write_last hcall hcurrent htaken ht, fate_eq_nil ?_ hbegun⟩
    rw [ht]
    exact Nat.le_add_right ..
  · have hafter : t.call? = some (.writing next rest') := by
      rw [ht, Session.call?_goOn]
      exact congrArg _ hcall
    have hpeer : t.peer = s.peer.hear frame := by rw [ht]; rfl
    have hown' : t.own = none := by
      have hnone : Peer.taken (s.peer.hear frame) = Peer.taken s.peer := by
        simp only [Peer.taken, hsame]
      rw [ht]
      simp only [Session.goOn, Session.handOver, if_pos hnone, hown]
    have hstate : t.turns.state = s.turns.state := by rw [ht]; rfl
    refine ⟨h.turn (by rw [hstate]) ?_ ?_ ?_ ?_ ?_ ?_ ?_ ?_, fate_eq_nil ?_ hbegun⟩
    · rw [hpeer, hsame]
    · rw [hpeer, Peripheral.hear_answers]
    · rw [hpeer, Peripheral.hear_read]
    · rw [hpeer, Peripheral.hear_queue]
    · rw [hafter, hcall]
      rfl
    · rw [ht]
      exact h.waiting
    · rw [ht]
      exact h.cancels
    · intro orphans _
      rw [hafter]
      refine .writing ?_ hown' (hpeer ▸ hnext)
      rw [ht]
      exact hcurrent
    · exact Nat.le_of_eq (by rw [hstate])

theorem exists_of_receive {call : Call} (hmove : BleAuthenticator.move call = .receive) :
    ∃ stale reader, call = .reading stale reader := by
  cases call with
  | writing => cases hmove
  | reading stale reader => exact ⟨stale, reader, rfl⟩
  | ended => cases hmove

/-- The answer is complete: it is counted off, and the call reads the next one or ends. -/
private theorem Inv.complete (h : Inv s fates) {stale : Bool} {reader : Reader} {a : Answer}
    {queue : List Bytes} {read : Nat} (hcall : s.call? = some (.reading stale reader))
    (howns : Owns s) (hpositive : 1 ≤ s.turns.state.outstanding)
    (howed : stale = decide (1 < s.turns.state.outstanding)) (hread : read = fates.length + 1)
    (hread_le : read ≤ s.peer.answers.length) (hanswer : s.peer.answers[read - 1]? = some a)
    (hbacklog : Backlog (s.peer.answers.drop read) queue)
    (ht : t = { s with peer := { s.peer with queue, read } }.goOn
      (s.turns.state.answered stale a.result)) :
    Inv t (fates ++ fate s .take t) ∧ (fate s .take t).countP Fate.isCut = 0 := by
  have hpeer : t.peer = { s.peer with queue, read } := by rw [ht]; rfl
  have hout : t.turns.state.outstanding + 1 = s.turns.state.outstanding := by
    rw [ht]
    cases stale <;> exact Nat.sub_add_cancel hpositive
  have howns' : Owns t := howns.mono (by rw [ht]; rfl) (by rw [ht]; rfl) (by rw [hpeer])
  have hfate : fate s .take t = [.counted fates.length] := by
    rw [fate, if_pos (by omega), hpeer, hread, Nat.add_sub_cancel]
  have hafter : begun t.call? = 0 := by
    rw [ht, Session.call?_goOn]
    change begun ((s.call?).map _) = 0
    rw [hcall]
    cases stale <;> rfl
  have hcuts := countP_isCut_add fates
  have houtstanding := h.outstanding
  have hanswers_le := h.answers_le
  rw [hfate]
  refine ⟨⟨?_, ?_, ?_, ?_, ?_, ?_, ?_, [], queue, ?_, ?_, ?_, ?_, ?_⟩, rfl⟩
  · rw [ht]
    exact h.waiting
  · rw [ht]
    exact h.cancels
  · rw [hpeer]
    exact hanswers_le
  · rw [hpeer]
    exact hread_le
  · rw [hpeer, hafter, List.length_append, List.length_singleton]
    exact hread
  · rw [List.map_append, h.numbered, List.length_append, List.length_singleton, List.range_succ]
    rfl
  · rw [List.countP_append, hpeer]
    change _ + (_ + 1) = s.peer.requests.length
    omega
  · rw [hpeer]
    rfl
  · rw [hpeer]
    exact hbacklog
  · intro frame hframe
    cases hframe
  · intro hne
    exact absurd rfl hne
  · cases hstale : stale with
    | true =>
      -- The answer was owed to an earlier call; the next one is read.
      rw [hstale] at howed
      have hmore : 1 < s.turns.state.outstanding := of_decide_eq_true howed.symm
      have hreading : t.call? = some (.reading (decide (1 < t.turns.state.outstanding))
          (.awaiting (decide (1 < t.turns.state.outstanding)))) := by
        rw [ht, hstale, Session.call?_goOn]
        exact congrArg (Option.map _) hcall
      rw [hreading]
      exact .awaiting howns' (by omega) rfl fun _ => rfl
    | false =>
      -- Nothing else is outstanding: all answers were begun, and this is the last.
      rw [hstale] at howed
      have hlast : ¬ 1 < s.turns.state.outstanding := of_decide_eq_false howed.symm
      have hended : t.call? = some (.ended (liftLink a.result)) := by
        rw [ht, hstale, Session.call?_goOn]
        exact congrArg (Option.map _) hcall
      obtain ⟨request, n, -, hown, hn, -⟩ := howns
      have hnumber : read - 1 = n := by omega
      rw [hended]
      refine .served howns' (n := n) ?_ ?_ (by omega)
      · rw [ht]
        exact hown
      · rw [hpeer, ← hnumber]
        exact hanswer

private theorem received_of_feed (a : BleAuthenticator) (stale : Bool) {reader : Reader}
    {frame : Bytes} {rest : List Bytes} {result : Except Link.Error Bytes}
    (h : reader.feed (frame :: rest) = .ended result []) :
    (rest = [] ∧ a.received (.reading stale reader) (.ok frame) = a.answered stale result) ∨
      ∃ next, reader.push frame = .ok (next, none) ∧ next.feed rest = .ended result [] ∧
        a.received (.reading stale reader) (.ok frame) = (a, .reading stale next) := by
  obtain ⟨_, _, hcons, hend⟩ := Reader.feed_eq_ended h
  cases hcons
  rcases hend with ⟨cause, hpush, rfl, hrest⟩ | ⟨next, payload, hpush, rfl, hrest⟩ |
    ⟨next, hpush, hmore⟩
  · exact .inl ⟨hrest, by simp only [BleAuthenticator.received, hpush]⟩
  · exact .inl ⟨hrest, by simp only [BleAuthenticator.received, hpush]⟩
  · exact .inr ⟨next, hpush, hmore, by simp only [BleAuthenticator.received, hpush]⟩

private theorem Inv.proceed (h : Inv s fates) {stale : Bool} {reader next : Reader}
    {queue : List Bytes} {read : Nat} (hcall : s.call? = some (.reading stale reader))
    (ht : t = { s with peer := { s.peer with queue, read } }.goOn
      (s.turns.state, .reading stale next))
    (howns : Owns s)
    (hbegun : begun (some (.reading stale reader)) ≤ begun (some (.reading stale next)))
    (hread : read = fates.length + begun (some (.reading stale next)))
    (hread_le : read ≤ s.peer.answers.length) (orphans more : List Bytes)
    (hqueue : queue = orphans ++ more) (hbacklog : Backlog (s.peer.answers.drop read) more)
    (hcontinues : ∀ frame ∈ orphans, continuesMessage frame = true)
    (horphans : orphans ≠ [] →
      0 < fates.countP Fate.isCut + begun (some (.reading stale next)))
    (hstands : Owns t → t.turns.state = s.turns.state → t.peer = { s.peer with queue, read } →
      Stands t orphans (some (.reading stale next))) :
    Inv t (fates ++ fate s .take t) ∧ (fate s .take t).countP Fate.isCut = 0 := by
  have hpeer : t.peer = { s.peer with queue, read } := by rw [ht]; rfl
  have hstate : t.turns.state = s.turns.state := by rw [ht]; rfl
  have howns' : Owns t := howns.mono (by rw [ht]; rfl) (by rw [ht]; rfl) (by rw [hpeer])
  have hafter : t.call? = some (.reading stale next) := by
    rw [ht, Session.call?_goOn]
    exact congrArg (Option.map _) hcall
  have hfate : fate s .take t = [] := by
    apply fate_eq_nil
    · exact Nat.le_of_eq (by rw [hstate])
    · rwa [hcall, hafter]
  rw [hfate, List.append_nil]
  refine ⟨⟨?_, ?_, ?_, ?_, ?_, h.numbered, ?_, orphans, more, ?_, ?_, hcontinues, ?_, ?_⟩, rfl⟩
  · rw [ht]
    exact h.waiting
  · rw [ht]
    exact h.cancels
  · rw [hpeer]
    exact h.answers_le
  · rw [hpeer]
    exact hread_le
  · rw [hpeer, hafter]
    exact hread
  · rw [hpeer, hstate]
    exact h.outstanding
  · rw [hpeer]
    exact hqueue
  · rw [hpeer]
    exact hbacklog
  · rwa [hafter]
  · rw [hafter]
    exact hstands howns' hstate hpeer

private theorem received_of_skips (a : BleAuthenticator) (stale : Bool) {resync : Bool}
    {frame : Bytes} (h : Reader.skips resync frame = true) :
    a.received (.reading stale (.awaiting resync)) (.ok frame) =
      (a, .reading stale (.awaiting resync)) := by
  simp only [BleAuthenticator.received, Reader.push, h, if_true]

/-- **The call at work takes a notification**: what is left of a begun answer, a keepalive, or a
frame of an answer. No answer is cut short by that. -/
theorem Inv.take (h : Inv s fates) (hstep : s.step? .take = some t) :
    Inv t (fates ++ fate s .take t) ∧ (fate s .take t).countP Fate.isCut = 0 := by
  obtain ⟨call, frame, peer, hr, hnext, ht⟩ := Session.step?_take.1 hstep
  obtain ⟨hcall, hmove⟩ := Session.reading?_eq_some.1 hr
  obtain ⟨stale, reader, rfl⟩ := exists_of_receive hmove
  obtain ⟨queue, hqueue, rfl⟩ := Peripheral.next?_eq_some.1 hnext
  obtain ⟨orphans, more, hall, hbacklog, hcontinues, horphans, hstands⟩ := h.queue
  have hread := h.read
  have hread_le := h.read_le
  rw [hcall] at hstands horphans hread
  rw [hqueue] at hall
  cases hstands with
  | awaiting owns positive owed clean =>
    simp only [begun, Nat.add_zero] at hread horphans
    rcases orphans with _ | ⟨orphan, orphans⟩
    · rw [List.nil_append] at hall
      subst hall
      rcases hbacklog.of_cons with ⟨⟨status, rfl⟩, hrest⟩ |
        ⟨a, answers, behind, more, hanswers, hframes, rfl, hrest⟩
      · -- A keepalive is passed over.
        have hskips : Reader.skips stale (keepaliveFrame status) = true := rfl
        rw [show opensAnswer (keepaliveFrame status) = false from rfl] at ht
        simp only [Authenticator.received, received_of_skips _ _ hskips, Bool.false_eq_true,
          if_false] at ht
        exact h.proceed hcall ht owns (Nat.le_refl _) hread hread_le [] queue rfl hrest (by simp)
          (by simp) fun howns hstate _ =>
            .awaiting howns (hstate ▸ positive) (hstate ▸ owed) fun _ => rfl
      · -- An answer begins.
        obtain ⟨hopens, hbehind⟩ := Answer.frames_of_cons hframes
        have hfeed := Reader.feed_answer a stale
        rw [hframes] at hfeed
        obtain ⟨hless, hanswer, hlater⟩ := getElem?_of_drop hanswers
        rw [← hlater] at hrest
        rw [if_pos hopens] at ht
        rcases received_of_feed s.turns.state stale hfeed with
          ⟨rfl, hreceived⟩ | ⟨next, hpush, hmore, hreceived⟩
        · simp only [Authenticator.received, hreceived] at ht
          exact h.complete hcall owns positive owed (by omega) hless hanswer hrest ht
        · obtain ⟨total, data, seq, rfl⟩ := Reader.gathers_of_opensAnswer hopens hpush
          simp only [Authenticator.received, hreceived] at ht
          refine h.proceed hcall ht owns (Nat.zero_le _) (by rw [hread]; rfl) hless behind more rfl
            hrest hbehind (fun _ => Nat.succ_pos _) ?_
          intro howns hstate hpeer
          refine .gathering (a := a) howns (hstate ▸ positive) (hstate ▸ owed) ?_ ?_ hmore
          · rw [hpeer]
            exact Nat.succ_pos _
          · rw [hpeer]
            exact hanswer
    · -- A continuation of an answer that was cut short is passed over.
      rw [List.cons_append] at hall
      obtain ⟨rfl, rfl⟩ := List.cons.inj hall
      have hstale : stale = true := by
        by_contra hne
        exact absurd (clean (Bool.not_eq_true _ ▸ hne)) (List.cons_ne_nil _ _)
      have hcontinue := hcontinues frame (List.mem_cons_self ..)
      have hskips : Reader.skips stale frame = true := by
        rcases frame with _ | ⟨first, rest⟩
        · cases hcontinue
        · rw [hstale, Reader.skips, Bool.true_and]
          exact Bool.or_eq_true _ _ ▸ .inr hcontinue
      rw [opensAnswer_of_continuesMessage hcontinue] at ht
      simp only [Authenticator.received, received_of_skips _ _ hskips, Bool.false_eq_true,
        if_false] at ht
      refine h.proceed hcall ht owns (Nat.le_refl _) hread hread_le orphans more rfl hbacklog
        (fun f hf => hcontinues f (List.mem_cons_of_mem _ hf))
        (fun _ => horphans (List.cons_ne_nil _ _)) ?_
      intro howns hstate _
      refine .awaiting howns (hstate ▸ positive) (hstate ▸ owed) fun hfresh => ?_
      rw [hstale] at hfresh
      cases hfresh
  | @gathering _ total data seq a owns positive owed some_read answer rest =>
    -- A continuation of the answer that is being taken comes next.
    obtain ⟨first, orphans, rfl, -⟩ := Reader.feed_eq_ended rest
    rw [List.cons_append] at hall
    obtain ⟨rfl, rfl⟩ := List.cons.inj hall
    rw [opensAnswer_of_continuesMessage (hcontinues frame (List.mem_cons_self ..))] at ht
    rcases received_of_feed s.turns.state stale rest with
      ⟨rfl, hreceived⟩ | ⟨next, hpush, hmore, hreceived⟩
    · simp only [Authenticator.received, hreceived, Bool.false_eq_true, if_false] at ht
      exact h.complete hcall owns positive owed hread hread_le answer hbacklog ht
    · obtain ⟨total', data', seq', rfl⟩ := Reader.gathers_of_gathering hpush
      simp only [Authenticator.received, hreceived, Bool.false_eq_true, if_false] at ht
      refine h.proceed hcall ht owns (Nat.le_refl 1) hread hread_le orphans more rfl hbacklog
        (fun f hf => hcontinues f (List.mem_cons_of_mem _ hf)) (fun _ => Nat.succ_pos _) ?_
      intro howns hstate hpeer
      refine .gathering (a := a) howns (hstate ▸ positive) (hstate ▸ owed) ?_ ?_ hmore
      · rw [hpeer]
        exact some_read
      · rw [hpeer]
        exact answer

private theorem begun_le_one (call : Option Call) : begun call ≤ 1 := by
  rcases call with _ | ⟨_ | ⟨_, _ | _⟩ | _⟩ <;> simp [begun]

/-- A caller goes. If its call was in the middle of an answer, that answer is cut short. -/
theorem Inv.leave (h : Inv s fates) {caller : Caller} (hstep : s.step? (.leave caller) = some t) :
    Inv t (fates ++ fate s (.leave caller) t) := by
  obtain ⟨ht, hworking⟩ := Session.step?_leave hstep
  have hpeer : t.peer = s.peer := by rw [ht]
  have hstate : t.turns.state = s.turns.state := by rw [ht]; rfl
  have hcancels : ∀ frame ∈ t.cancels, Peripheral.isCancel frame = true := by
    rw [ht]
    exact h.cancels
  have hlater : ∀ w ∈ t.turns.waiting, w.2.command.isRequest = true := by
    rw [ht]
    exact fun w hw => h.waiting w (List.mem_filter.1 hw).1
  split_ifs at hworking with hgone
  · have hafter : t.call? = none := by rw [Session.call?, hworking, Option.map_none]
    by_cases hbegun : begun s.call? = 0
    · have hfate : fate s (.leave caller) t = [] := by
        apply fate_eq_nil
        · exact Nat.le_of_eq (by rw [hstate])
        · rw [hbegun]
          exact Nat.zero_le _
      rw [hfate, List.append_nil]
      refine h.turn (by rw [hstate]) (by rw [hpeer]) (by rw [hpeer]) (by rw [hpeer])
        (by rw [hpeer]) (by rw [hafter, hbegun]; rfl) hlater hcancels ?_
      intro orphans _
      rw [hafter]
      exact .idle
    · have hone : begun s.call? = 1 := by
        have := begun_le_one s.call?
        omega
      have hread := h.read
      rw [hone] at hread
      have hfate : fate s (.leave caller) t = [.cut fates.length] := by
        rw [fate, hstate, hafter, hpeer, hone, hread, if_neg (Nat.lt_irrefl _), Nat.add_sub_cancel]
        rfl
      obtain ⟨orphans, more, hall, hbacklog, hcontinues, horphans, -⟩ := h.queue
      rw [hfate]
      refine ⟨hlater, hcancels, ?_, ?_, ?_, ?_, ?_, orphans, more, ?_, ?_, hcontinues, ?_, ?_⟩
      · rw [hpeer]
        exact h.answers_le
      · rw [hpeer]
        exact h.read_le
      · rw [hpeer, hafter, List.length_append]
        exact hread
      · rw [List.map_append, h.numbered, List.length_append, List.length_singleton,
          List.range_succ]
        rfl
      · rw [List.countP_append, hpeer, hstate]
        exact h.outstanding
      · rw [hpeer, hall]
      · rw [hpeer]
        exact hbacklog
      · intro _
        rw [List.countP_append]
        exact Nat.add_pos_left (Nat.succ_pos _) _
      · rw [hafter]
        exact .idle
  · have hafter : t.call? = s.call? := by rw [Session.call?, Session.call?, hworking]
    have hfate : fate s (.leave caller) t = [] := by
      apply fate_eq_nil
      · exact Nat.le_of_eq (by rw [hstate])
      · exact Nat.le_of_eq (by rw [hafter])
    rw [hfate, List.append_nil]
    exact h.aside hstate hafter (by rw [ht]) (by rw [ht]) hpeer hlater hcancels

/-! ### Runs -/

/-- **Every step keeps the invariant.** -/
theorem Inv.step (h : Inv s fates) {e : Event} (hpermits : permits s e = true)
    (hstep : s.step? e = some t) : Inv t (fates ++ fate s e t) := by
  -- Most steps settle no fate.
  have hnone (hkeep : Inv t fates ∧ fate s e t = []) : Inv t (fates ++ fate s e t) := by
    rw [hkeep.2, List.append_nil]
    exact hkeep.1
  cases e with
  | arrive caller request => exact hnone (h.arrive hpermits hstep)
  | start now caller => exact hnone (h.start hstep)
  | write choice => exact hnone (h.write hstep)
  | breakOff => cases hpermits
  | lose => cases hpermits
  | take => exact (h.take hstep).1
  | fail => cases hpermits
  | leave caller => exact h.leave hstep
  | cancel => exact hnone (h.cancel hstep)
  | signal choice => exact hnone (h.signal hstep)
  | unsignal => exact hnone (h.unsignal hstep)
  | act act => exact hnone (h.act hstep)

theorem Inv.fresh (packetSize : Nat) (answerTimeout : Time) :
    Inv (fresh packetSize answerTimeout) [] where
  waiting _ hw := by cases hw
  cancels _ hframe := by cases hframe
  answers_le := Nat.le_refl _
  read_le := Nat.le_refl _
  read := rfl
  numbered := rfl
  outstanding := rfl
  queue := ⟨[], [], rfl, .nothing, by simp, by simp, .idle⟩

/-- **Every run keeps the invariant.** -/
theorem Inv.run (h : Inv s fates) {events : List Event}
    (hrun : Session.run? permits s events = some t) :
    Inv t (fates ++ Session.observe fate s events) := by
  refine Session.run?_induction_observe (P := Inv) ?_ h hrun
  intro u seen e v hu hpermits hstep
  exact hu.step hpermits hstep

private theorem Stands.result {orphans : List Bytes} {call : Call}
    (h : Stands s orphans (some call)) {payload : Bytes}
    (hmove : BleAuthenticator.move call = .stop (.ok payload)) : ∃ n request a, s.own = some n ∧
      s.current = some request ∧
      s.peer.requests[n]? = some (request.command.toByte, request.payload) ∧
      s.peer.answers[n]? = some a ∧ a.result = .ok payload := by
  cases h with
  | writing => cases hmove
  | awaiting => cases hmove
  | gathering => cases hmove
  | refused => cases hmove
  | @served n a owns own answer settled =>
    obtain ⟨request, m, hcurrent, hown, -, hrequest⟩ := owns
    rw [own] at hown
    cases hown
    refine ⟨n, request, a, own, hcurrent, hrequest, answer, ?_⟩
    rcases hresult : a.result with cause | payload'
    · rw [hresult] at hmove
      cases hmove
    · rw [hresult] at hmove
      cases hmove
      rfl

private theorem Stands.positive {orphans : List Bytes} {call : Call}
    (h : Stands s orphans (some call)) (hmove : BleAuthenticator.move call = .receive) :
    1 ≤ s.turns.state.outstanding := by
  cases h with
  | writing => cases hmove
  | awaiting _ positive => exact positive
  | gathering _ positive => exact positive
  | _ => cases hmove

/-- **A call gets the answer to its own request, and the count is kept.** After any run, a call that
has ended well has the answer to the request it made. The count of outstanding requests is never
below the number of requests whose answer was not begun, it is positive whenever an answer is read,
and what it has gone down by is the number of answers that were counted off, each of them once. -/
theorem result_is_own_answer {packetSize : Nat} {answerTimeout : Time} {events : List Event}
    (hrun : Session.run? permits (Relay.fresh packetSize answerTimeout) events = some t) :
    (∀ payload, t.result? = some (.ok payload) → ∃ n request a, t.own = some n ∧
      t.current = some request ∧
      t.peer.requests[n]? = some (request.command.toByte, request.payload) ∧
      t.peer.answers[n]? = some a ∧ a.result = .ok payload) ∧
    t.peer.requests.length - t.peer.read ≤ t.turns.state.outstanding ∧
    (t.reading?.isSome → 1 ≤ t.turns.state.outstanding) ∧
    ∃ fates, fates = Session.observe fate (Relay.fresh packetSize answerTimeout) events ∧
      (fates.map Fate.answer).Pairwise (· < ·) ∧
      (∀ f ∈ fates, f.answer < t.peer.requests.length) ∧
      t.turns.state.outstanding + fates.countP (!·.isCut) = t.peer.requests.length := by
  have h := (Inv.fresh packetSize answerTimeout).run hrun
  rw [List.nil_append] at h
  obtain ⟨orphans, more, -, -, -, -, hstands⟩ := h.queue
  refine ⟨?_, ?_, ?_, _, rfl, ?_, ?_, h.outstanding⟩
  · intro payload hresult
    obtain ⟨call, hcall, hmove⟩ := Session.result?_eq_some.1 hresult
    rw [hcall] at hstands
    exact hstands.result hmove
  · have hexcess := h.excess
    omega
  · intro hreading
    obtain ⟨call, hcall⟩ := Option.isSome_iff_exists.1 hreading
    obtain ⟨hcall, hmove⟩ := Session.reading?_eq_some.1 hcall
    rw [hcall] at hstands
    exact hstands.positive hmove
  · rw [h.numbered]
    exact List.pairwise_lt_range
  · intro f hf
    have hnumber : f.answer ∈ List.range _ := h.numbered ▸ List.mem_map_of_mem hf
    have hread := h.read
    have hread_le := h.read_le
    have hanswers_le := h.answers_le
    rw [List.mem_range] at hnumber
    omega

/-- The answer `00 01 02`, cut after its first octet. -/
def longAnswer : Answer :=
  .message
    { command := Command.msg.toByte
      first := [0]
      pieces := [[1, 2]]
      isCommand := by decide
      noKeepalive := by decide
      noError := by decide
      fits := by decide
      needed := by decide }

/-- The answer `00 02` in one frame. -/
def shortAnswer : Answer :=
  .message
    { command := Command.msg.toByte
      first := [0, 2]
      pieces := []
      isCommand := by decide
      noKeepalive := by decide
      noError := by decide
      fits := by decide
      needed := by decide }

/-- A call is dropped while it waits for its answer, and another caller comes. -/
def droppedBeforeAnswer : List Event :=
  [.arrive 1 ⟨.msg, [1]⟩, .start 0 1, .write (), .leave 1, .act (.answer longAnswer),
    .arrive 2 ⟨.msg, [2]⟩]

/-- The other caller gets its own answer, although the one to the call that was dropped comes first. -/
theorem result_is_own_answer_after_drop : ∃ t,
    Session.run? permits (Relay.fresh 64 30000) (droppedBeforeAnswer ++
      [.start 7000 2, .write (), .act (.answer shortAnswer), .take, .take, .take]) = some t ∧
    t.result? = some (.ok [0, 2]) ∧ ∃ n request a, t.own = some n ∧
      t.current = some request ∧
      t.peer.requests[n]? = some (request.command.toByte, request.payload) ∧
      t.peer.answers[n]? = some a ∧ a.result = .ok [0, 2] := by
  have hrun : Session.run? permits (Relay.fresh 64 30000) (droppedBeforeAnswer ++
    [.start 7000 2, .write (), .act (.answer shortAnswer), .take, .take, .take]) = some _ := rfl
  exact ⟨_, hrun, rfl, (result_is_own_answer hrun).1 _ rfl⟩

end Relay

end Ctap.Ble
