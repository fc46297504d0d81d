import Ctap.Proofs.Ble.Ownership
import Mathlib.Data.List.Flatten

/-!
# Answers over BLE after a gap

Continuations of answers may get lost on their way. A call whose answer has a gap fails in the
middle of it, and what is left of that answer stays in the queue although the answer was counted
off. No call is dropped here. A later call fails on each frame that was left, and its own answer
stays for the call after it: from then on results belong to earlier requests. They come back into
step only if a call loses the header frame of the next answer, because it finds that frame where a
continuation should be.

## Main definitions

* `Lossy`: a peripheral whose continuations may get lost.
* `LossyRelay`, `LossyRelay.permits`: an authenticator with its callers and such a peripheral, and
  what may happen there.
* `Slip`, `LossyRelay.slips`: the failures that put calls and answers out of step.
* `LossyRelay.Inv`: the invariant.

## Main results

* `LossyRelay.Inv.step`, `LossyRelay.Inv.run`: every step and every run keeps the invariant.
* `LossyRelay.result_lags_by_leftovers`: which answer a call has that ends well.
-/

namespace Ctap.Ble

/-! ### A peripheral whose continuations may get lost -/

/-- A peripheral whose continuations may get lost on their way to the reader. -/
structure Lossy extends Peripheral

namespace Lossy

/-- What happens at the other end of the connection. -/
inductive Act where
  | act (act : Peripheral.Act)
  /-- The notification at a position of the queue is lost. -/
  | lose (position : Nat)

/-- The state after an act. Only a frame that goes on with a message can be lost. -/
def act? (p : Lossy) : Act → Option Lossy
  | .act act => (p.toPeripheral.act? act).map Lossy.mk
  | .lose position =>
    if p.queue[position]?.any continuesMessage then
      some { p with queue := p.queue.eraseIdx position }
    else none

instance : Peer Lossy Unit Act where
  hear? p _ frame := some ⟨p.toPeripheral.hear frame⟩
  next? p := p.toPeripheral.next?.map fun r => (r.1, ⟨r.2⟩)
  act? := act?
  taken p := p.requests.length

end Lossy

/-! ### Answers with gaps -/

/-- Notifications that bring the given answers in order, with keepalives between them. Of each
answer the header frame comes, and any of the continuations. -/
inductive Thinned : List Answer → List Bytes → Prop where
  | nothing : Thinned [] []
  | keepalive (status : UInt8) {answers : List Answer} {queue : List Bytes} :
    Thinned answers queue → Thinned answers (keepaliveFrame status :: queue)
  | answer (a : Answer) {header : Bytes} {rest kept : List Bytes} {answers : List Answer}
    {queue : List Bytes} : a.frames = header :: rest → kept.Sublist rest → Thinned answers queue →
    Thinned (a :: answers) (header :: (kept ++ queue))

namespace Thinned

variable {answers : List Answer} {queue : List Bytes}

theorem keepalive_last (h : Thinned answers queue) (status : UInt8) :
    Thinned answers (queue ++ [keepaliveFrame status]) := by
  induction h with
  | nothing => exact .keepalive status .nothing
  | keepalive status' _ ih => exact .keepalive status' ih
  | answer a hframes hkept _ ih =>
    rw [List.cons_append, List.append_assoc]
    exact .answer a hframes hkept ih

theorem answer_last (h : Thinned answers queue) (a : Answer) :
    Thinned (answers ++ [a]) (queue ++ a.frames) := by
  induction h with
  | nothing =>
    obtain ⟨header, rest, hframes, -⟩ := a.frames_eq_cons
    have hone := Thinned.answer a hframes (.refl rest) .nothing
    rwa [List.append_nil, ← hframes] at hone
  | keepalive status _ ih => exact .keepalive status ih
  | answer a' hframes hkept _ ih =>
    rw [List.cons_append, List.cons_append, List.append_assoc]
    exact .answer a' hframes hkept ih

/-- What comes first is a keepalive, or the header frame of the first answer. -/
theorem of_cons {frame : Bytes} (h : Thinned answers (frame :: queue)) :
    ((∃ status, frame = keepaliveFrame status) ∧ Thinned answers queue) ∨
      ∃ a later rest kept more, answers = a :: later ∧ a.frames = frame :: rest ∧
        kept.Sublist rest ∧ queue = kept ++ more ∧ Thinned later more := by
  cases h with
  | keepalive status h => exact .inl ⟨⟨status, rfl⟩, h⟩
  | answer a hframes hkept h => exact .inr ⟨a, _, _, _, _, rfl, hframes, hkept, rfl, h⟩

/-- A continuation of an answer may get lost. -/
theorem eraseIdx (h : Thinned answers queue) {position : Nat}
    (hlost : queue[position]?.any continuesMessage = true) :
    Thinned answers (queue.eraseIdx position) := by
  induction h generalizing position with
  | nothing => simp at hlost
  | keepalive status h ih =>
    cases position with
    | zero => cases hlost
    | succ position => exact .keepalive status (ih hlost)
  | @answer a header rest kept answers queue hframes hkept h ih =>
    cases position with
    | zero =>
      have hopens := continuesMessage_of_opensAnswer (Answer.frames_of_cons hframes).1
      rw [List.getElem?_cons_zero, Option.any_some, hopens] at hlost
      cases hlost
    | succ position =>
      rw [List.getElem?_cons_succ] at hlost
      rw [List.eraseIdx_cons_succ]
      by_cases hinside : position < kept.length
      · rw [List.eraseIdx_append_of_lt_length hinside]
        exact .answer a hframes ((List.eraseIdx_sublist kept position).trans hkept) h
      · rw [List.getElem?_append_right (Nat.not_lt.1 hinside)] at hlost
        rw [List.eraseIdx_append_of_length_le (Nat.not_lt.1 hinside)]
        exact .answer a hframes hkept (ih hlost)

end Thinned

/-- What a reader has taken and what is still on its way, which may have gaps, against the payload
of the answer: if nothing is missing, they are the payload. -/
structure Accrues (payload data : Bytes) (frames : List Bytes) : Prop where
  length_le : (data ++ frames.flatMap List.tail).length ≤ payload.length
  whole : (data ++ frames.flatMap List.tail).length = payload.length →
    data ++ frames.flatMap List.tail = payload

namespace Accrues

variable {payload data : Bytes} {frames : List Bytes}

/-- Frames may get lost. -/
theorem sublist (h : Accrues payload data frames) {fewer : List Bytes}
    (hfewer : fewer.Sublist frames) : Accrues payload data fewer := by
  have hsub : (data ++ fewer.flatMap List.tail).Sublist (data ++ frames.flatMap List.tail) :=
    (hfewer.flatMap _).append_left data
  refine ⟨Nat.le_trans hsub.length_le h.length_le, fun heq => ?_⟩
  -- As long as the payload, nothing was lost.
  have hlength : (data ++ frames.flatMap List.tail).length = payload.length :=
    Nat.le_antisymm h.length_le (heq ▸ hsub.length_le)
  rw [hsub.eq_of_length (heq.trans hlength.symm)]
  exact h.whole hlength

theorem take_eq {frame : Bytes} (h : Accrues payload data (frame :: frames)) :
    frame.tail.take (payload.length - data.length) = frame.tail := by
  have hlength := h.length_le
  apply List.take_of_length_le
  simp only [List.flatMap_cons, List.length_append] at hlength
  omega

theorem step {frame : Bytes} (h : Accrues payload data (frame :: frames)) :
    Accrues payload (data ++ frame.tail) frames := by
  have hall : data ++ frame.tail ++ frames.flatMap List.tail =
      data ++ (frame :: frames).flatMap List.tail := by
    rw [List.flatMap_cons, List.append_assoc]
  exact ⟨hall ▸ h.length_le, hall ▸ h.whole⟩

/-- Once the declared length is reached, what was taken is the payload. -/
theorem eq_payload (h : Accrues payload data frames) (hlength : ¬ data.length < payload.length) :
    data = payload := by
  have hle := h.length_le
  rw [List.length_append] at hle
  have hnil : frames.flatMap List.tail = [] := List.length_eq_zero_iff.1 (by omega)
  have hwhole := h.whole
  rw [hnil, List.append_nil] at hwhole
  exact hwhole (by omega)

/-- All that a message has adds up to its payload. -/
theorem message (m : Message) : Accrues m.payload m.first (continuations 0 m.pieces) := by
  have hpieces (seq : UInt8) (pieces : List Bytes) :
      (continuations seq pieces).flatMap List.tail = pieces.flatten := by
    induction pieces generalizing seq with
    | nil => rfl
    | cons piece pieces ih =>
      rw [continuations, List.flatMap_cons, ih, List.flatten_cons, List.tail_cons]
  have hall : m.first ++ (continuations 0 m.pieces).flatMap List.tail = m.payload := by
    rw [hpieces, Message.payload]
  exact ⟨Nat.le_of_eq (congrArg _ hall), fun _ => hall⟩

end Accrues

namespace Reader

variable {frame : Bytes}

/-- A continuation is refused where an answer should begin. -/
theorem push_leftover (h : continuesMessage frame = true) :
    (awaiting false).push frame = .error missingCommand := by
  rcases frame with _ | ⟨first, rest⟩
  · cases h
  · simp only [continuesMessage, beq_iff_eq] at h
    have hskips : skips false (first :: rest) = false := by
      simp only [skips, Bool.false_and, Bool.or_false, beq_eq_false_iff_ne]
      rintro rfl
      exact absurd h (by decide)
    simp only [push, hskips, Bool.false_eq_true, if_false, Header.parse, h, if_true]

theorem push_foreign (h : continuesMessage frame = false) {seq : UInt8} (hseq : seq &&& 0x80 = 0)
    (total : Nat) (data : Bytes) :
    ∃ cause, (gathering total data seq).push frame = .error cause := by
  rcases frame with _ | ⟨actual, more⟩
  · exact ⟨_, rfl⟩
  · refine ⟨.invalidSequence seq actual, ?_⟩
    rw [push, if_neg]
    rintro rfl
    simp [continuesMessage, hseq] at h

/-- A continuation is taken, or it has another number than the one that is next. -/
theorem push_gathering (h : continuesMessage frame = true) (total : Nat) (data : Bytes)
    (seq : UInt8) : (∃ cause, (gathering total data seq).push frame = .error cause) ∨
      (gathering total data seq).push frame =
        .ok (settle total (data ++ frame.tail.take (total - data.length)) (nextSeq seq)) := by
  rcases frame with _ | ⟨actual, more⟩
  · cases h
  · by_cases hactual : actual = seq
    · exact .inr (by rw [push, if_pos hactual, List.tail_cons])
    · exact .inl ⟨_, by rw [push, if_neg hactual]⟩

end Reader

/-! ### Sessions -/

/-- An authenticator with its callers and a peripheral whose continuations may get lost. -/
abbrev LossyRelay : Type := Session BleAuthenticator Request Call Lossy

/-- What puts calls and answers out of step. -/
inductive Slip where
  /-- A call failed on a continuation that an earlier one had left. -/
  | leftover
  /-- A call failed on the header frame of another answer, which is lost with it. -/
  | beheaded
deriving DecidableEq

/-- Whether a call waits for the header frame of its answer: one if so, and zero otherwise. -/
def awaits : Option Call → Nat
  | some (.reading _ (.awaiting _)) => 1
  | _ => 0

/-- Whether a call has ended. -/
def Call.hasEnded : Call → Bool
  | .ended _ => true
  | _ => false

namespace LossyRelay

/-- What can happen on a BLE connection where continuations may get lost. -/
abbrev Event : Type := Session.Event Request Unit Lossy.Act

/-- A connection that was just made. -/
def fresh (packetSize : Nat) (answerTimeout : Time) : LossyRelay :=
  Session.fresh ⟨packetSize, answerTimeout, 0⟩ ⟨Peripheral.fresh⟩

/-- What may happen: requests are made, the link does not fail, and no call is dropped before it has
ended. -/
def permits (s : LossyRelay) : Event → Bool
  | .arrive _ request => request.command.isRequest
  | .breakOff .. | .lose _ | .fail _ => false
  | .leave caller => s.turns.working.all fun w => w.caller != caller || w.call.hasEnded
  | _ => true

/-- What slips in a step: the frame that the call at work takes is none that it waits for. -/
def slips (s : LossyRelay) : Event → LossyRelay → List Slip
  | .take, _ =>
    match s.call?, s.peer.queue with
    | some (.reading _ (.awaiting _)), frame :: _ =>
      if continuesMessage frame then [.leftover] else []
    | some (.reading _ (.gathering ..)), frame :: _ =>
      if opensAnswer frame then [.beheaded] else []
    | _, _ => []
  | _, _ => []

/-- The call at work has made the last request that the peripheral took. -/
def Owns (s : LossyRelay) : Prop :=
  ∃ request n, s.current = some request ∧ s.own = some n ∧ n + 1 = s.peer.requests.length ∧
    s.peer.requests[n]? = some (request.command.toByte, request.payload)

/-- The answer that was begun last. -/
def Begun (s : LossyRelay) (a : Answer) : Prop :=
  1 ≤ s.peer.read ∧ s.peer.answers[s.peer.read - 1]? = some a

/-- Where the call at work stands, if continuations of a begun answer come first. -/
inductive Stands (s : LossyRelay) (orphans : List Bytes) : Option Call → Prop where
  | idle (settled : s.turns.state.outstanding = 0) : Stands s orphans none
  /-- The peripheral expects what the call still writes. -/
  | writing {request : Request} {frame : Bytes} {rest : List Bytes}
    (settled : s.turns.state.outstanding = 0) (current : s.current = some request)
    (own : s.own = none)
    (missing : s.peer.Expects (request.command.toByte, request.payload) frame rest) :
    Stands s orphans (some (.writing frame rest))
  /-- The call waits for the header frame of an answer. -/
  | awaiting (one : s.turns.state.outstanding = 1) (owns : Owns s) :
    Stands s orphans (some (.reading false (.awaiting false)))
  | gathering {a : Answer} {payload data : Bytes} {seq : UInt8}
    (one : s.turns.state.outstanding = 1) (owns : Owns s) (begun : Begun s a)
    (result : a.result = .ok payload) (accrues : Accrues payload data orphans)
    (numbered : seq &&& 0x80 = 0) :
    Stands s orphans (some (.reading false (.gathering payload.length data seq)))
  | failed {cause : Ctap.Error} (settled : s.turns.state.outstanding = 0) :
    Stands s orphans (some (.ended (.error cause)))
  /-- The call has the answer that was begun last. -/
  | served {a : Answer} {payload : Bytes} (settled : s.turns.state.outstanding = 0) (owns : Owns s)
    (begun : Begun s a) (result : a.result = .ok payload) :
    Stands s orphans (some (.ended (.ok payload)))

/-- The invariant, given what slipped. -/
structure Inv (s : LossyRelay) (slips : List Slip) : Prop where
  waiting : ∀ w ∈ s.turns.waiting, w.2.command.isRequest = true
  /-- Cancelling packets ask for requests to be given up. -/
  cancels : ∀ frame ∈ s.cancels, Peripheral.isCancel frame = true
  answers_le : s.peer.answers.length ≤ s.peer.requests.length
  read_le : s.peer.read ≤ s.peer.answers.length
  /-- Every request takes the header frame of one answer, unless something slips. -/
  count : s.peer.requests.length + slips.count .beheaded =
    s.peer.read + slips.count .leftover + awaits s.call?
  /-- What comes next are continuations of a begun answer, and then the other answers. -/
  queue : ∃ orphans more, s.peer.queue = orphans ++ more ∧
    Thinned (s.peer.answers.drop s.peer.read) more ∧
    (∀ frame ∈ orphans, continuesMessage frame = true) ∧ Stands s orphans s.call?

/-! ### Steps that the call at work does not notice -/

variable {s t : LossyRelay} {slipped : List Slip}

theorem Owns.mono (h : Owns s) (hcurrent : t.current = s.current) (hown : t.own = s.own)
    (hrequests : t.peer.requests = s.peer.requests) : Owns t := by
  rwa [Owns, hcurrent, hown, hrequests]

/-- Answers that come later and frames that get lost do not matter to where a call stands. -/
theorem Stands.mono {orphans fewer : List Bytes} {call : Option Call} (h : Stands s orphans call)
    (hfewer : fewer.Sublist orphans) (hstate : t.turns.state = s.turns.state)
    (hcurrent : t.current = s.current) (hown : t.own = s.own) {answers : List Answer}
    {queue : List Bytes}
    (hpeer : t.peer = { s.peer with answers := s.peer.answers ++ answers, queue }) :
    Stands t fewer call := by
  have howns (hs : Owns s) : Owns t := hs.mono hcurrent hown (by rw [hpeer])
  have hbegun {a : Answer} (hs : Begun s a) : Begun t a := by
    rw [Begun, hpeer]
    exact ⟨hs.1, (List.getElem?_append_left (List.getElem?_eq_some_iff.1 hs.2).1).trans hs.2⟩
  cases h with
  | idle settled => exact .idle (hstate ▸ settled)
  | writing settled current own missing =>
    refine .writing (hstate ▸ settled) (hcurrent.trans current) (hown.trans own) ?_
    rw [hpeer]
    exact ⟨missing.noCancel, missing.command, missing.payload, missing.continues⟩
  | awaiting one owns => exact .awaiting (hstate ▸ one) (howns owns)
  | gathering one owns begun result accrues numbered =>
    exact .gathering (hstate ▸ one) (howns owns) (hbegun begun) result (accrues.sublist hfewer)
      numbered
  | failed settled => exact .failed (hstate ▸ settled)
  | served settled owns begun result =>
    exact .served (hstate ▸ settled) (howns owns) (hbegun begun) result

/-- The invariant is kept where neither what the peripheral has taken and sent nor what calls wait
for is changed, if the call at work still stands where it should. -/
theorem Inv.turn (h : Inv s slipped) (hrequests : t.peer.requests = s.peer.requests)
    (hanswers : t.peer.answers = s.peer.answers) (hread : t.peer.read = s.peer.read)
    (hqueue : t.peer.queue = s.peer.queue) (hawaits : awaits t.call? = awaits s.call?)
    (hwaiting : ∀ w ∈ t.turns.waiting, w.2.command.isRequest = true)
    (hcancels : ∀ frame ∈ t.cancels, Peripheral.isCancel frame = true)
    (hstands : ∀ orphans, Stands s orphans s.call? → Stands t orphans t.call?) : Inv t slipped := by
  obtain ⟨orphans, more, hall, hthinned, hcontinues, hs⟩ := h.queue
  refine ⟨hwaiting, hcancels, ?_, ?_, ?_, ?_⟩
  · rw [hanswers, hrequests]
    exact h.answers_le
  · rw [hread, hanswers]
    exact h.read_le
  · rw [hrequests, hread, hawaits]
    exact h.count
  · rw [hanswers, hread, hqueue]
    exact ⟨orphans, more, hall, hthinned, hcontinues, hstands orphans hs⟩

/-- Callers that come and go and packets that cancel are nothing to the call at work. -/
theorem Inv.aside (h : Inv s slipped) (hstate : t.turns.state = s.turns.state)
    (hcall : t.call? = s.call?) (hcurrent : t.current = s.current) (hown : t.own = s.own)
    (hpeer : t.peer = s.peer) (hwaiting : ∀ w ∈ t.turns.waiting, w.2.command.isRequest = true)
    (hcancels : ∀ frame ∈ t.cancels, Peripheral.isCancel frame = true) : Inv t slipped := by
  refine h.turn (by rw [hpeer]) (by rw [hpeer]) (by rw [hpeer]) (by rw [hpeer]) (by rw [hcall])
    hwaiting hcancels ?_
  intro orphans hs
  have hsame : t.peer = { s.peer with
      answers := s.peer.answers ++ []
      queue := s.peer.queue } := by
    rw [hpeer, List.append_nil]
  rw [hcall]
  exact hs.mono (.refl orphans) hstate hcurrent hown hsame

/-- A caller that comes has a request to make. -/
theorem Inv.arrive (h : Inv s slipped) {caller : Caller} {request : Request}
    (hrequest : request.command.isRequest = true)
    (hstep : s.step? (.arrive caller request) = some t) : Inv t slipped := by
  cases hstep
  refine h.aside rfl rfl rfl rfl rfl ?_ h.cancels
  intro w hw
  rcases List.mem_append.1 hw with hw | hw
  · exact h.waiting w hw
  · rw [List.mem_singleton] at hw
    rw [hw]
    exact hrequest

theorem Inv.cancel (h : Inv s slipped) (hstep : s.step? .cancel = some t) : Inv t slipped := by
  obtain ⟨packets, hpackets, rfl⟩ := Session.step?_cancel hstep
  refine h.aside rfl rfl rfl rfl rfl h.waiting ?_
  intro frame hframe
  rcases List.mem_append.1 hframe with hframe | hframe
  · exact h.cancels frame hframe
  · rcases hpackets with hpackets | rfl
    · exact Relay.isCancel_of_cancellation hpackets frame hframe
    · cases hframe

theorem Inv.signal (h : Inv s slipped) (hstep : s.step? (.signal ()) = some t) :
    Inv t slipped := by
  obtain ⟨frame, rest, peer, hcancels, hhear, rfl⟩ := Session.step?_signal.1 hstep
  have hframes := h.cancels
  rw [hcancels] at hframes
  cases hhear
  refine h.aside rfl rfl rfl rfl ?_ h.waiting ?_
  · exact congrArg Lossy.mk (Peripheral.hear_cancel (hframes frame (List.mem_cons_self ..)))
  · exact fun f hf => hframes f (List.mem_cons_of_mem _ hf)

theorem Inv.unsignal (h : Inv s slipped) (hstep : s.step? .unsignal = some t) :
    Inv t slipped := by
  obtain ⟨frame, rest, hcancels, rfl⟩ := Session.step?_unsignal.1 hstep
  refine h.aside rfl rfl rfl rfl rfl h.waiting ?_
  intro f hf
  apply h.cancels
  rw [hcancels]
  exact List.mem_cons_of_mem _ hf

/-- What the peripheral sends comes behind what is on its way, and only continuations get lost. -/
theorem Inv.act (h : Inv s slipped) {act : Lossy.Act} (hstep : s.step? (.act act) = some t) :
    Inv t slipped := by
  obtain ⟨peer, hact, rfl⟩ := Session.step?_act.1 hstep
  obtain ⟨orphans, more, hqueue, hthinned, hcontinues, hstands⟩ := h.queue
  have hkeep {fewer : List Bytes} (hfewer : fewer.Sublist orphans) (answers : List Answer)
      (queue : List Bytes)
      (hpeer : peer = { s.peer with answers := s.peer.answers ++ answers, queue }) :
      Stands { s with peer } fewer s.call? :=
    hstands.mono (t := { s with peer }) hfewer rfl rfl rfl hpeer
  rcases act with (status | a) | position
  · cases hact
    refine ⟨h.waiting, h.cancels, h.answers_le, h.read_le, h.count, orphans,
      more ++ [keepaliveFrame status], ?_, hthinned.keepalive_last status, hcontinues,
      hkeep (.refl orphans) [] _ (by rw [List.append_nil])⟩
    rw [hqueue, List.append_assoc]
  · have hopen : s.peer.answers.length < s.peer.requests.length := by
      by_contra hfull
      simp only [Peer.act?, Lossy.act?, Peripheral.act?, if_neg hfull, Option.map_none,
        reduceCtorEq] at hact
    simp only [Peer.act?, Lossy.act?, Peripheral.act?, if_pos hopen, Option.map_some,
      Option.some.injEq] at hact
    subst hact
    refine ⟨h.waiting, h.cancels, ?_, ?_, h.count, orphans, more ++ a.frames, ?_, ?_, hcontinues,
      hkeep (.refl orphans) [a] _ rfl⟩
    · rw [List.length_append]
      exact hopen
    · rw [List.length_append]
      exact Nat.le_add_right_of_le h.read_le
    · rw [hqueue, List.append_assoc]
    · rw [List.drop_append_of_le_length h.read_le]
      exact hthinned.answer_last a
  · simp only [Peer.act?, Lossy.act?, Option.ite_none_right_eq_some, Option.some.injEq] at hact
    obtain ⟨hlost, rfl⟩ := hact
    -- The frame is a continuation of the answer that was begun, or of one behind it.
    obtain ⟨fewer, more', hqueue', hfewer, hthinned'⟩ : ∃ fewer more',
        s.peer.queue.eraseIdx position = fewer ++ more' ∧ fewer.Sublist orphans ∧
          Thinned (s.peer.answers.drop s.peer.read) more' := by
      rw [hqueue] at hlost ⊢
      by_cases hinside : position < orphans.length
      · exact ⟨_, more, List.eraseIdx_append_of_lt_length hinside _,
          List.eraseIdx_sublist orphans position, hthinned⟩
      · rw [List.getElem?_append_right (Nat.not_lt.1 hinside)] at hlost
        exact ⟨orphans, _, List.eraseIdx_append_of_length_le (Nat.not_lt.1 hinside) _,
          .refl orphans, hthinned.eraseIdx hlost⟩
    refine ⟨h.waiting, h.cancels, h.answers_le, h.read_le, h.count, fewer, more', hqueue',
      hthinned', fun f hf => hcontinues f (hfewer.subset hf),
      hkeep hfewer [] _ (by rw [List.append_nil])⟩

/-- A caller that goes has its result, or it was not at work. -/
theorem Inv.leave (h : Inv s slipped) {caller : Caller}
    (hpermits : permits s (.leave caller) = true) (hstep : s.step? (.leave caller) = some t) :
    Inv t slipped := by
  obtain ⟨ht, hworking⟩ := Session.step?_leave hstep
  have hpeer : t.peer = s.peer := by rw [ht]
  have hstate : t.turns.state = s.turns.state := by rw [ht]; rfl
  have hcancels : ∀ frame ∈ t.cancels, Peripheral.isCancel frame = true := by
    rw [ht]
    exact h.cancels
  have hlater : ∀ w ∈ t.turns.waiting, w.2.command.isRequest = true := by
    rw [ht]
    exact fun w hw => h.waiting w (List.mem_filter.1 hw).1
  split_ifs at hworking with hgone
  · obtain ⟨w, hw, hcaller⟩ := (Option.any_eq_true _ _).1 hgone
    have hcall : s.call? = some w.call := by rw [Session.call?, hw, Option.map_some]
    have hafter : t.call? = none := by rw [Session.call?, hworking, Option.map_none]
    have hended : w.call.hasEnded = true := by
      rw [permits, hw, Option.all_some] at hpermits
      simpa [beq_iff_eq.1 hcaller] using hpermits
    obtain ⟨result, hresult⟩ : ∃ result, w.call = .ended result := by
      generalize w.call = call at hended
      cases call with
      | ended result => exact ⟨result, rfl⟩
      | _ => cases hended
    rw [hresult] at hcall
    refine h.turn (by rw [hpeer]) (by rw [hpeer]) (by rw [hpeer]) (by rw [hpeer])
      (by rw [hafter, hcall]; rfl) hlater hcancels ?_
    intro orphans hs
    rw [hcall] at hs
    rw [hafter]
    cases hs with
    | failed settled => exact .idle (hstate ▸ settled)
    | served settled => exact .idle (hstate ▸ settled)
  · have hafter : t.call? = s.call? := by rw [Session.call?, Session.call?, hworking]
    exact h.aside hstate hafter (by rw [ht]) (by rw [ht]) hpeer hlater hcancels

/-! ### Steps of the call at work -/

theorem Inv.start (h : Inv s slipped) {now : Time} {caller : Caller}
    (hstep : s.step? (.start now caller) = some t) : Inv t slipped := by
  obtain ⟨request, rest, hnone, hwaiting, rfl⟩ := Session.step?_start.1 hstep
  have hidle : s.call? = none := by rw [Session.call?, hnone, Option.map_none]
  have hrequest : request.command.isRequest = true :=
    h.waiting (caller, request) (by simp [hwaiting])
  have hlater : ∀ w ∈ rest, w.2.command.isRequest = true := by
    intro w hw
    apply h.waiting
    rw [hwaiting]
    exact List.mem_cons_of_mem _ hw
  have hsettled {orphans : List Bytes} (hs : Stands s orphans s.call?) :
      s.turns.state.outstanding = 0 := by
    rw [hidle] at hs
    cases hs with
    | idle settled => exact settled
  simp only [Authenticator.engage]
  rcases Relay.engage_eq s.turns.state hrequest s.peer.toPeripheral with
    ⟨cause, hfault, hengage⟩ | ⟨frame, rest', hengage, hexpects⟩
  · rw [hengage]
    refine h.turn rfl rfl rfl rfl (by rw [hidle]; rfl) hlater h.cancels ?_
    exact fun orphans hs => .failed (hsettled hs)
  · rw [hengage]
    refine h.turn rfl rfl rfl rfl (by rw [hidle]; rfl) hlater h.cancels ?_
    exact fun orphans hs => .writing (hsettled hs) rfl rfl hexpects

private theorem Stands.of_send {orphans : List Bytes} {call : Call} {frame : Bytes}
    (h : Stands s orphans (some call)) (hmove : BleAuthenticator.move call = .send frame) :
    ∃ request rest, call = .writing frame rest ∧ s.turns.state.outstanding = 0 ∧
      s.current = some request ∧ s.own = none ∧
      s.peer.Expects (request.command.toByte, request.payload) frame rest := by
  cases h with
  | writing settled current own missing =>
    cases hmove
    exact ⟨_, _, rfl, settled, current, own, missing⟩
  | _ => cases hmove

/-- The call has written the last frame: the peripheral has the request, and the call waits for an
answer. -/
private theorem Inv.write_last (h : Inv s slipped) {request : Request} {frame : Bytes}
    (hcall : s.call? = some (.writing frame [])) (hsettled : s.turns.state.outstanding = 0)
    (hcurrent : s.current = some request)
    (htaken : (s.peer.hear frame).requests =
      s.peer.requests ++ [(request.command.toByte, request.payload)])
    (ht : t = (s.handOver ⟨s.peer.hear frame⟩).goOn s.turns.state.written) : Inv t slipped := by
  obtain ⟨orphans, more, hall, hthinned, hcontinues, -⟩ := h.queue
  have hpeer : t.peer = ⟨s.peer.hear frame⟩ := by rw [ht]; rfl
  have hout : t.turns.state.outstanding = 1 := by
    rw [ht]
    exact congrArg (· + 1) hsettled
  have hnumber : t.peer.requests.length = s.peer.requests.length + 1 := by
    rw [hpeer, htaken, List.length_append, List.length_singleton]
  have hafter : t.call? = some (.reading false (.awaiting false)) := by
    rw [ht, Session.call?_goOn]
    change Option.map _ s.call? = _
    rw [hcall, Option.map_some, BleAuthenticator.written, BleAuthenticator.readNext, hsettled]
    rfl
  have hown : t.own = some s.peer.requests.length := by
    have hmore : Peer.taken (⟨s.peer.hear frame⟩ : Lossy) ≠ Peer.taken s.peer := by
      change (s.peer.hear frame).requests.length ≠ s.peer.requests.length
      rw [htaken, List.length_append, List.length_singleton]
      omega
    rw [ht]
    simp only [Session.goOn, Session.handOver, if_neg hmore]
    rfl
  have hread_le := h.read_le
  have hanswers_le := h.answers_le
  have hcount := h.count
  rw [hcall] at hcount
  simp only [awaits, Nat.add_zero] at hcount
  refine ⟨?_, ?_, ?_, ?_, ?_, orphans, more, ?_, ?_, hcontinues, ?_⟩
  · rw [ht]
    exact h.waiting
  · rw [ht]
    exact h.cancels
  · rw [hnumber, hpeer, Peripheral.hear_answers]
    omega
  · rw [hpeer, Peripheral.hear_answers, Peripheral.hear_read]
    exact hread_le
  · rw [hnumber, hafter, hpeer, Peripheral.hear_read]
    simp only [awaits]
    omega
  · rw [hpeer, Peripheral.hear_queue, hall]
  · rw [hpeer, Peripheral.hear_answers, Peripheral.hear_read]
    exact hthinned
  · rw [hafter]
    refine .awaiting hout ⟨request, s.peer.requests.length, ?_, hown, hnumber.symm, ?_⟩
    · rw [ht]
      exact hcurrent
    · rw [hpeer, htaken, List.getElem?_concat_length]

theorem Inv.write (h : Inv s slipped) (hstep : s.step? (.write ()) = some t) : Inv t slipped := by
  obtain ⟨call, frame, peer, hw, hhear, ht⟩ := Session.step?_write.1 hstep
  obtain ⟨hcall, hmove⟩ := Session.writing?_eq_some.1 hw
  obtain ⟨orphans, more, -, -, -, hstands⟩ := h.queue
  rw [hcall] at hstands
  obtain ⟨request, rest, rfl, hsettled, hcurrent, hown, hexpects⟩ := hstands.of_send hmove
  cases hhear
  rcases Peripheral.hear_expected hexpects with ⟨rfl, htaken⟩ | ⟨next, rest', rfl, hsame, hnext⟩
  · exact h.write_last hcall hsettled hcurrent htaken ht
  · have hafter : t.call? = some (.writing next rest') := by
      rw [ht, Session.call?_goOn]
      exact congrArg _ hcall
    have hpeer : t.peer = ⟨s.peer.hear frame⟩ := by rw [ht]; rfl
    have hown' : t.own = none := by
      have hnone : Peer.taken (⟨s.peer.hear frame⟩ : Lossy) = Peer.taken s.peer := by
        simp only [Peer.taken, hsame]
      rw [ht]
      simp only [Session.goOn, Session.handOver, if_pos hnone, hown]
    refine h.turn ?_ ?_ ?_ ?_ ?_ ?_ ?_ ?_
    · rw [hpeer, hsame]
    · rw [hpeer, Peripheral.hear_answers]
    · rw [hpeer, Peripheral.hear_read]
    · rw [hpeer, Peripheral.hear_queue]
    · rw [hafter, hcall]
      rfl
    · rw [ht]
      exact h.waiting
    · rw [ht]
      exact h.cancels
    · intro orphans _
      rw [hafter]
      have hcurrent' : t.current = some request := by
        rw [ht]
        exact hcurrent
      have hnext' : t.peer.Expects (request.command.toByte, request.payload) next rest' := by
        rw [hpeer]
        exact hnext
      refine .writing ?_ hcurrent' hown' hnext'
      rw [ht]
      exact hsettled

/-- The call at work has taken a frame, and what is left of the answer that was begun last comes
next. -/
private theorem Inv.taken (h : Inv s slipped) {call next : Call} {state : BleAuthenticator}
    {queue : List Bytes} {read : Nat} {slip : List Slip} (hcall : s.call? = some call)
    (ht : t = { s with peer := { s.peer with queue, read } }.goOn (state, next))
    (hread_le : read ≤ s.peer.answers.length)
    (hcount : s.peer.requests.length + (slipped ++ slip).count .beheaded =
      read + (slipped ++ slip).count .leftover + awaits (some next))
    {orphans more : List Bytes} (hqueue : queue = orphans ++ more)
    (hthinned : Thinned (s.peer.answers.drop read) more)
    (hcontinues : ∀ frame ∈ orphans, continuesMessage frame = true)
    (hstands : t.turns.state = state → (Owns s → Owns t) →
      t.peer = { s.peer with queue, read } → Stands t orphans (some next)) :
    Inv t (slipped ++ slip) := by
  have hpeer : t.peer = { s.peer with queue, read } := by rw [ht]; rfl
  have hafter : t.call? = some next := by
    rw [ht, Session.call?_goOn]
    exact congrArg (Option.map _) hcall
  have howns (hs : Owns s) : Owns t := hs.mono (by rw [ht]; rfl) (by rw [ht]; rfl) (by rw [hpeer])
  refine ⟨?_, ?_, ?_, ?_, ?_, orphans, more, ?_, ?_, hcontinues, ?_⟩
  · rw [ht]
    exact h.waiting
  · rw [ht]
    exact h.cancels
  · rw [hpeer]
    exact h.answers_le
  · rw [hpeer]
    exact hread_le
  · rw [hpeer, hafter]
    exact hcount
  · rw [hpeer]
    exact hqueue
  · rw [hpeer]
    exact hthinned
  · rw [hafter]
    exact hstands (by rw [ht]; rfl) howns hpeer

private theorem Inv.refuse (h : Inv s slipped) {reader : Reader} {frame : Bytes}
    {cause : Link.Error} {queue : List Bytes} {read : Nat} {slip : List Slip}
    (hcall : s.call? = some (.reading false reader)) (hone : s.turns.state.outstanding = 1)
    (hpush : reader.push frame = .error cause)
    (ht : t = { s with peer := { s.peer with queue, read } }.goOn
      (s.turns.state.received (.reading false reader) (.ok frame)))
    (hread_le : read ≤ s.peer.answers.length)
    (hcount : s.peer.requests.length + (slipped ++ slip).count .beheaded =
      read + (slipped ++ slip).count .leftover)
    {orphans more : List Bytes} (hqueue : queue = orphans ++ more)
    (hthinned : Thinned (s.peer.answers.drop read) more)
    (hcontinues : ∀ frame ∈ orphans, continuesMessage frame = true) :
    Inv t (slipped ++ slip) := by
  simp only [BleAuthenticator.received, hpush, BleAuthenticator.answered, Bool.false_eq_true,
    if_false] at ht
  refine h.taken hcall ht hread_le hcount hqueue hthinned hcontinues ?_
  intro hstate _ _
  refine .failed ?_
  rw [hstate, hone]

private theorem Inv.accept (h : Inv s slipped) {reader : Reader} {a : Answer}
    {frame payload data : Bytes} {seq : UInt8} {queue : List Bytes} {read : Nat}
    (hcall : s.call? = some (.reading false reader)) (hone : s.turns.state.outstanding = 1)
    (howns : Owns s) (hpush : reader.push frame = .ok (Reader.settle payload.length data seq))
    (ht : t = { s with peer := { s.peer with queue, read } }.goOn
      (s.turns.state.received (.reading false reader) (.ok frame)))
    (hread : 1 ≤ read) (hread_le : read ≤ s.peer.answers.length)
    (hanswer : s.peer.answers[read - 1]? = some a) (hresult : a.result = .ok payload)
    (hnumbered : seq &&& 0x80 = 0)
    (hcount : s.peer.requests.length + slipped.count .beheaded = read + slipped.count .leftover)
    {orphans more : List Bytes} (haccrues : Accrues payload data orphans)
    (hqueue : queue = orphans ++ more) (hthinned : Thinned (s.peer.answers.drop read) more)
    (hcontinues : ∀ frame ∈ orphans, continuesMessage frame = true) : Inv t slipped := by
  have hbegun (hpeer : t.peer = { s.peer with queue, read }) : Begun t a := by
    rw [Begun, hpeer]
    exact ⟨hread, hanswer⟩
  have hnothing : slipped ++ [] = slipped := List.append_nil _
  rw [← hnothing] at hcount ⊢
  by_cases hshort : data.length < payload.length
  · rw [Reader.settle, if_pos hshort] at hpush
    simp only [BleAuthenticator.received, hpush] at ht
    refine h.taken hcall ht hread_le hcount hqueue hthinned hcontinues ?_
    exact fun hstate hkeeps hpeer =>
      .gathering (hstate ▸ hone) (hkeeps howns) (hbegun hpeer) hresult
      haccrues hnumbered
  · rw [Reader.settle, if_neg hshort, haccrues.eq_payload hshort] at hpush
    simp only [BleAuthenticator.received, hpush, BleAuthenticator.answered, Bool.false_eq_true,
      if_false] at ht
    refine h.taken hcall ht hread_le hcount hqueue hthinned hcontinues ?_
    intro hstate hkeeps hpeer
    refine .served ?_ (hkeeps howns) (hbegun hpeer) hresult
    rw [hstate, hone]

private theorem Inv.take_awaiting (h : Inv s slipped) {frame : Bytes} {queue : List Bytes}
    (hcall : s.call? = some (.reading false (.awaiting false)))
    (hone : s.turns.state.outstanding = 1) (howns : Owns s) {orphans more : List Bytes}
    (hqueue : s.peer.queue = frame :: queue) (hall : frame :: queue = orphans ++ more)
    (hthinned : Thinned (s.peer.answers.drop s.peer.read) more)
    (hcontinues : ∀ frame ∈ orphans, continuesMessage frame = true)
    (ht : t = { s with
      peer := { s.peer with
        queue
        read := if opensAnswer frame then s.peer.read + 1 else s.peer.read } }.goOn
      (s.turns.state.received (.reading false (.awaiting false)) (.ok frame))) :
    Inv t (slipped ++ slips s .take t) := by
  have hcount := h.count
  have hread_le := h.read_le
  rw [hcall] at hcount
  simp only [awaits] at hcount
  simp only [slips, hcall, hqueue]
  rcases orphans with _ | ⟨orphan, orphans⟩
  · rw [List.nil_append] at hall
    subst hall
    rcases hthinned.of_cons with ⟨⟨status, rfl⟩, hrest⟩ |
      ⟨a, later, rest, kept, more, hanswers, hframes, hkept, rfl, hrest⟩
    · -- A keepalive is passed over.
      have hcontinue : continuesMessage (keepaliveFrame status) = false := rfl
      have hopens : opensAnswer (keepaliveFrame status) = false := rfl
      have hpush : (Reader.awaiting false).push (keepaliveFrame status) =
        .ok (.awaiting false, none) := rfl
      rw [hopens] at ht
      rw [hcontinue]
      simp only [BleAuthenticator.received, hpush, Bool.false_eq_true, if_false] at ht ⊢
      refine h.taken hcall ht hread_le ?_ (List.nil_append _).symm hrest (by simp) ?_
      · rwa [List.append_nil]
      · exact fun hstate hkeeps _ => .awaiting (hstate ▸ hone) (hkeeps howns)
    · -- An answer begins.
      obtain ⟨hopens, hrests⟩ := Answer.frames_of_cons hframes
      obtain ⟨hless, hanswer, hlater⟩ := getElem?_of_drop hanswers
      rw [hopens] at ht
      rw [continuesMessage_of_opensAnswer hopens]
      simp only [Bool.false_eq_true, if_false, if_true, List.append_nil] at ht ⊢
      have hkept' : ∀ frame ∈ kept, continuesMessage frame = true :=
        fun f hf => hrests f (hkept.subset hf)
      rw [← hlater] at hrest
      cases a with
      | message m =>
        cases hframes
        exact h.accept hcall hone howns (Reader.push_header m false) ht (Nat.succ_pos _) hless
          hanswer rfl rfl (by omega) ((Accrues.message m).sublist hkept) rfl hrest hkept'
      | error code =>
        cases hframes
        have hnothing := List.append_nil slipped
        rw [← hnothing] at hcount ⊢
        exact h.refuse hcall hone rfl ht hless (by omega) rfl hrest hkept'
  · -- A continuation that an earlier call has left makes this one fail.
    rw [List.cons_append] at hall
    obtain ⟨rfl, rfl⟩ := List.cons.inj hall
    have hcontinue := hcontinues frame (List.mem_cons_self ..)
    rw [opensAnswer_of_continuesMessage hcontinue] at ht
    rw [if_pos hcontinue]
    simp only [Bool.false_eq_true, if_false] at ht
    refine h.refuse hcall hone (Reader.push_leftover hcontinue) ht hread_le ?_ rfl hthinned
      fun f hf => hcontinues f (List.mem_cons_of_mem _ hf)
    simp only [List.count_append, List.count_singleton, beq_iff_eq, reduceCtorEq, if_true, if_false]
    omega

private theorem Inv.take_gathering (h : Inv s slipped) {a : Answer} {frame payload data : Bytes}
    {seq : UInt8} {queue : List Bytes}
    (hcall : s.call? = some (.reading false (.gathering payload.length data seq)))
    (hone : s.turns.state.outstanding = 1) (howns : Owns s) (hbegun : Begun s a)
    (hresult : a.result = .ok payload) (hnumbered : seq &&& 0x80 = 0) {orphans more : List Bytes}
    (haccrues : Accrues payload data orphans) (hqueue : s.peer.queue = frame :: queue)
    (hall : frame :: queue = orphans ++ more)
    (hthinned : Thinned (s.peer.answers.drop s.peer.read) more)
    (hcontinues : ∀ frame ∈ orphans, continuesMessage frame = true)
    (ht : t = { s with
      peer := { s.peer with
        queue
        read := if opensAnswer frame then s.peer.read + 1 else s.peer.read } }.goOn
      (s.turns.state.received (.reading false (.gathering payload.length data seq)) (.ok frame))) :
    Inv t (slipped ++ slips s .take t) := by
  have hcount := h.count
  have hread_le := h.read_le
  rw [hcall] at hcount
  simp only [awaits, Nat.add_zero] at hcount
  simp only [slips, hcall, hqueue]
  rcases orphans with _ | ⟨orphan, orphans⟩
  · rw [List.nil_append] at hall
    subst hall
    rcases hthinned.of_cons with ⟨⟨status, rfl⟩, hrest⟩ |
      ⟨a, later, rest, kept, more, hanswers, hframes, hkept, rfl, hrest⟩
    · have hcontinue : continuesMessage (keepaliveFrame status) = false := rfl
      have hopens : opensAnswer (keepaliveFrame status) = false := rfl
      obtain ⟨cause, hpush⟩ := Reader.push_foreign hcontinue hnumbered payload.length data
      rw [hopens] at ht ⊢
      simp only [Bool.false_eq_true, if_false] at ht ⊢
      refine h.refuse hcall hone hpush ht hread_le ?_ (List.nil_append _).symm hrest (by simp)
      rwa [List.append_nil]
    · -- The header frame of another answer is lost.
      obtain ⟨hopens, hrests⟩ := Answer.frames_of_cons hframes
      obtain ⟨hless, -, hlater⟩ := getElem?_of_drop hanswers
      obtain ⟨cause, hpush⟩ := Reader.push_foreign (continuesMessage_of_opensAnswer hopens)
        hnumbered payload.length data
      rw [hopens] at ht ⊢
      simp only [if_true] at ht ⊢
      rw [← hlater] at hrest
      refine h.refuse hcall hone hpush ht hless ?_ rfl hrest fun f hf => hrests f (hkept.subset hf)
      simp only [List.count_append, List.count_singleton, beq_iff_eq, reduceCtorEq, if_true,
        if_false]
      omega
  · rw [List.cons_append] at hall
    obtain ⟨rfl, rfl⟩ := List.cons.inj hall
    have hcontinue := hcontinues frame (List.mem_cons_self ..)
    have hlater (f : Bytes) (hf : f ∈ orphans) := hcontinues f (List.mem_cons_of_mem _ hf)
    rw [opensAnswer_of_continuesMessage hcontinue] at ht ⊢
    simp only [Bool.false_eq_true, if_false] at ht ⊢
    rcases Reader.push_gathering hcontinue payload.length data seq with ⟨cause, hpush⟩ | hpush
    · refine h.refuse hcall hone hpush ht hread_le ?_ rfl hthinned hlater
      rwa [List.append_nil]
    · rw [haccrues.take_eq] at hpush
      rw [List.append_nil]
      exact h.accept hcall hone howns hpush ht hbegun.1 hread_le hbegun.2 hresult
        (nextSeq_has_no_high_bit seq hnumbered) hcount haccrues.step rfl hthinned hlater

/-- **The call at work takes a notification**: what is left of an answer, a keepalive, or a frame
of an answer of which continuations may be missing. -/
theorem Inv.take (h : Inv s slipped) (hstep : s.step? .take = some t) :
    Inv t (slipped ++ slips s .take t) := by
  obtain ⟨call, frame, peer, hr, hnext, ht⟩ := Session.step?_take.1 hstep
  obtain ⟨hcall, hmove⟩ := Session.reading?_eq_some.1 hr
  obtain ⟨⟨frame', peer'⟩, hnext', heq⟩ := Option.map_eq_some_iff.1 hnext
  cases heq
  obtain ⟨queue, hqueue, rfl⟩ := Peripheral.next?_eq_some.1 hnext'
  obtain ⟨orphans, more, hall, hthinned, hcontinues, hstands⟩ := h.queue
  rw [hcall] at hstands
  rw [hqueue] at hall
  cases hstands with
  | writing => cases hmove
  | awaiting one owns =>
    exact h.take_awaiting hcall one owns hqueue hall hthinned hcontinues ht
  | gathering one owns begun result accrues numbered =>
    exact h.take_gathering hcall one owns begun result numbered accrues hqueue hall hthinned
      hcontinues ht
  | failed => cases hmove
  | served => cases hmove

/-! ### Runs -/

/-- **Every step keeps the invariant.** -/
theorem Inv.step (h : Inv s slipped) {e : Event} (hpermits : permits s e = true)
    (hstep : s.step? e = some t) : Inv t (slipped ++ slips s e t) := by
  -- Nothing slips unless a frame is taken.
  have hnone (hkeep : Inv t slipped) (hslips : slips s e t = []) :
      Inv t (slipped ++ slips s e t) := by
    rwa [hslips, List.append_nil]
  cases e with
  | arrive caller request => exact hnone (h.arrive hpermits hstep) rfl
  | start now caller => exact hnone (h.start hstep) rfl
  | write choice => exact hnone (h.write hstep) rfl
  | breakOff => cases hpermits
  | lose => cases hpermits
  | take => exact h.take hstep
  | fail => cases hpermits
  | leave caller => exact hnone (h.leave hpermits hstep) rfl
  | cancel => exact hnone (h.cancel hstep) rfl
  | signal choice => exact hnone (h.signal hstep) rfl
  | unsignal => exact hnone (h.unsignal hstep) rfl
  | act act => exact hnone (h.act hstep) rfl

theorem Inv.fresh (packetSize : Nat) (answerTimeout : Time) :
    Inv (fresh packetSize answerTimeout) [] where
  waiting _ hw := by cases hw
  cancels _ hframe := by cases hframe
  answers_le := Nat.le_refl _
  read_le := Nat.le_refl _
  count := rfl
  queue := ⟨[], [], rfl, .nothing, by simp, .idle rfl⟩

/-- **Every run keeps the invariant.** -/
theorem Inv.run (h : Inv s slipped) {events : List Event}
    (hrun : Session.run? permits s events = some t) :
    Inv t (slipped ++ Session.observe slips s events) := by
  refine Session.run?_induction_observe (P := Inv) ?_ h hrun
  intro u seen e v hu hpermits hstep
  exact hu.step hpermits hstep

private theorem Stands.result {orphans : List Bytes} {call : Call}
    (h : Stands s orphans (some call)) {payload : Bytes}
    (hmove : BleAuthenticator.move call = .stop (.ok payload)) :
    awaits (some call) = 0 ∧ Owns s ∧ ∃ a, Begun s a ∧ a.result = .ok payload := by
  cases h with
  | served settled owns begun result =>
    cases hmove
    exact ⟨rfl, owns, _, begun, result⟩
  | _ => cases hmove

/-- **Results lag behind by what slipped.** After any run in which continuations may get lost and no
call is dropped, a call that has ended well has an answer to some request of the run, with the
payload as the peripheral sent it. The number of that request and the number of the call's own one
differ by the calls that failed on leftovers, less those that failed on a header frame. So the
result is the answer to the call's own request exactly if there were as many of the one as of the
other. -/
theorem result_lags_by_leftovers {packetSize : Nat} {answerTimeout : Time} {events : List Event}
    {payload : Bytes}
    (hrun : Session.run? permits (fresh packetSize answerTimeout) events = some t)
    (hresult : t.result? = some (.ok payload)) : ∃ slipped n k request a,
      slipped = Session.observe slips (fresh packetSize answerTimeout) events ∧
      t.own = some n ∧ t.current = some request ∧
      t.peer.requests[n]? = some (request.command.toByte, request.payload) ∧
      t.peer.answers[k]? = some a ∧ a.result = .ok payload ∧
      n + slipped.count .beheaded = k + slipped.count .leftover ∧
      (k = n ↔ slipped.count .leftover = slipped.count .beheaded) := by
  have h := (Inv.fresh packetSize answerTimeout).run hrun
  rw [List.nil_append] at h
  obtain ⟨orphans, more, -, -, -, hstands⟩ := h.queue
  obtain ⟨call, hcall, hmove⟩ := Session.result?_eq_some.1 hresult
  rw [hcall] at hstands
  obtain ⟨hawaits, ⟨request, n, hcurrent, hown, hn, hrequest⟩, a, ⟨hread, hanswer⟩, hpayload⟩ :=
    hstands.result hmove
  have hcount := h.count
  rw [hcall, hawaits, Nat.add_zero] at hcount
  refine ⟨_, n, t.peer.read - 1, request, a, rfl, hown, hcurrent, hrequest, hanswer, hpayload, ?_,
    ?_⟩
  · omega
  · omega

/-- The answer `00 01 02 03`, one octet in each frame. -/
def slicedAnswer : Answer :=
  .message
    { command := 0x83
      first := [0]
      pieces := [[1], [2], [3]]
      isCommand := by decide
      noKeepalive := by decide
      noError := by decide
      fits := by decide
      needed := by decide }

/-- The first call fails on a gap. One continuation of its answer is left, on which the second call
fails. -/
def afterGap : List Event :=
  [.arrive 1 ⟨.msg, [1]⟩, .start 0 1, .write (), .act (.act (.answer slicedAnswer)), .act (.lose 1),
    .take, .take, .leave 1,
    .arrive 2 ⟨.msg, [2]⟩, .start 500 2, .write (), .take, .leave 2]

/-- The third call loses the header frame of another answer, and the fourth is back in step. -/
def backInStep : List Event :=
  afterGap ++
    [.act (.act (.answer Relay.longAnswer)), .act (.lose 1),
      .arrive 3 ⟨.msg, [3]⟩, .start 1000 3, .write (), .act (.act (.answer (.error 1))),
      .take, .take, .leave 3,
      .arrive 4 ⟨.msg, [4]⟩, .start 1500 4, .write (), .act (.act (.answer Relay.shortAnswer)),
      .take]

/-- One call has failed on a leftover and one on a header frame, and the last one has the answer to
its own request. -/
theorem result_lags_by_leftovers_back_in_step : ∃ t,
    Session.run? permits (fresh 64 30000) backInStep = some t ∧
      t.result? = some (.ok [0, 2]) ∧
      Session.observe slips (fresh 64 30000) backInStep = [.leftover, .beheaded] ∧
      ∃ n a, t.own = some n ∧ t.peer.answers[n]? = some a ∧ a.result = .ok [0, 2] := by
  have hrun : Session.run? permits (fresh 64 30000) backInStep = some _ := rfl
  obtain ⟨slipped, n, k, request, a, hslipped, hown, -, -, hanswer, hresult, -, hstep⟩ :=
    @result_lags_by_leftovers _ 64 30000 backInStep [0, 2] hrun rfl
  have hslips : Session.observe slips (fresh 64 30000) backInStep = [.leftover, .beheaded] := rfl
  have hk : k = n := hstep.2 (by rw [hslipped, hslips]; rfl)
  rw [hk] at hanswer
  exact ⟨_, hrun, rfl, hslips, n, a, hown, hanswer, hresult⟩

/-- After a gap the third call, which nothing is missing of, has the answer to the second one. -/
theorem result_is_earlier_answer_after_gap : ¬ ∀ events t payload,
    Session.run? permits (fresh 64 30000) events = some t → t.result? = some (.ok payload) →
      ∃ n a, t.own = some n ∧ t.peer.answers[n]? = some a ∧ a.result = .ok payload := by
  intro hclaim
  have hrun : Session.run? permits (fresh 64 30000) (afterGap ++
    [.act (.act (.answer Relay.shortAnswer)), .arrive 3 ⟨.msg, [3]⟩, .start 1000 3, .write (),
      .act (.act (.answer Relay.longAnswer)), .take]) = some _ := rfl
  obtain ⟨n, a, hown, hanswer, hresult⟩ := hclaim _ _ [0, 2] hrun rfl
  cases hown
  cases hanswer
  cases hresult

end LossyRelay

end Ctap.Ble
