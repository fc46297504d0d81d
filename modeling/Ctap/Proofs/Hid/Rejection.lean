import Ctap.Proofs.Hid.Stream

/-!
# Packets that leave no trace

A reassembler may be written in place, field by field, while a packet is taken. It refuses a packet
before it has written anything. So packets that are refused, like the keepalives that are passed
over, can be left out of a stream, and what comes of the others is the same. Packets of another
channel are refused; two reassemblers that are both given the packets of two channels, mixed in
whatever way, put together what each of them would have put together from its own.

## Main definitions

* `Reassembler.pushInPlace`: a push that writes the reassembler.
* `Reassembler.kept`: the packets of a stream without those that leave no trace.
* `Shuffled`: two lists mixed so that each keeps its order.

## Main results

* `Reassembler.pushInPlace_eq`: a push in place.
* `Reassembler.Thinned.payloads_eq`: packets that leave no trace can be left out.
* `Reassembler.refused_leaves_no_trace`: pushes, streams, and the packets of two channels.
-/

namespace Ctap.Hid

/-- Two lists are mixed so that each keeps its order. -/
inductive Shuffled {α : Type} : List α → List α → List α → Prop where
  | nil : Shuffled [] [] []
  | left {x : α} {xs ys zs : List α} (h : Shuffled xs ys zs) : Shuffled (x :: xs) ys (x :: zs)
  | right {y : α} {xs ys zs : List α} (h : Shuffled xs ys zs) : Shuffled xs (y :: ys) (y :: zs)

theorem Shuffled.symm {α : Type} {xs ys zs : List α} (h : Shuffled xs ys zs) :
    Shuffled ys xs zs := by
  induction h with
  | nil => exact .nil
  | left _ ih => exact ih.right
  | right _ ih => exact ih.left

/-- Whether a packet is of a channel, unless it is too short for its header. -/
def isOf (channel : ChannelId) (raw : Bytes) : Bool :=
  match Packet.decode raw with
  | .ok p => p.channel == channel
  | .error _ => true

namespace Reassembler

/-! ### Pushes in place -/

/-- Gives out what has been gathered if it is complete. -/
def takeIfComplete : StateM Reassembler (Option Bytes) := do
  let r ← get
  match r.gathered with
  | none => return none
  | some g =>
    if g.data.length = g.total then
      set { r with gathered := none }
      return some g.data
    else return none

/-- Takes the next packet and writes the reassembler on the way. What was written stays when the
packet is refused. -/
def pushInPlace (raw : Bytes) : ExceptT Link.Error (StateM Reassembler) (Option Bytes) := do
  let packet ← liftExcept (Packet.decode raw)
  let r ← get
  if packet.channel ≠ r.channel then throw (.channelMismatch r.channel packet.channel)
  match packet, r.gathered with
  | .initial _ command length data, none =>
    if command = r.expected then
      if maxPayload raw.length < length.toNat then throw (.messageTooLarge length.toNat)
      set { r with gathered := some ⟨length.toNat, data.take length.toNat, 0⟩ }
      takeIfComplete
    else if command = Command.keepalive.toByte then return none
    else if command = Command.error.toByte then
      throw (.deviceError (data.head?.getD ErrorCode.other.toByte))
    else throw (.unexpectedCommand command)
  | .initial _ command _ _, some g => throw (.invalidSequence g.nextSeq (command ||| 0x80))
  | .continuation .., none => throw strayContinuation
  | .continuation _ seq data, some g =>
    if seq ≠ g.nextSeq then throw (.invalidSequence g.nextSeq seq)
    let longer := { g with data := g.data ++ data.take (g.total - g.data.length) }
    set { r with gathered := some longer }
    set { r with gathered := some { longer with nextSeq := longer.nextSeq + 1 } }
    takeIfComplete

variable {r : Reassembler} {raw : Bytes} {raws less xs ys zs : List Bytes}

/-- What is written and then taken out if it is complete is settled. -/
theorem run_takeIfComplete (r s : Reassembler) (g : Gathered) :
    (do set { r with gathered := some g }; takeIfComplete :
        ExceptT Link.Error (StateM Reassembler) (Option Bytes)).run.run s =
      (.ok (r.settle g).2, (r.settle g).1) := by
  have htaken : takeIfComplete.run { r with gathered := some g } =
      ((r.settle g).2, (r.settle g).1) := by
    rw [settle_eq]
    by_cases hcomplete : g.data.length = g.total
    · simp only [takeIfComplete, StateT.run_bind, StateT.run_get, pure_bind, hcomplete, if_true]
      rfl
    · simp only [takeIfComplete, StateT.run_bind, StateT.run_get, pure_bind, hcomplete, if_false]
      rfl
  exact congrArg (fun x => (Except.ok x.1, x.2)) htaken

/-- **A push in place** has the result of a push, and leaves the same reassembler. -/
theorem pushInPlace_eq (r : Reassembler) (raw : Bytes) :
    (pushInPlace raw).run.run r = (r.result raw, r.step raw) := by
  have hget {α : Type} (k : Reassembler → ExceptT Link.Error (StateM Reassembler) α) :
      (get >>= k).run.run r = (k r).run.run r := rfl
  rw [result, step, push]
  cases hdecode : Packet.decode raw with
  | error e =>
    simp only [pushInPlace, hdecode]
    rfl
  | ok packet =>
    simp only [pushInPlace, hdecode, liftExcept, pure_bind, hget]
    by_cases hchannel : packet.channel = r.channel
    · rw [if_pos hchannel, if_neg (not_not.2 hchannel)]
      -- Both decide in the same order, and nothing is written ahead of a decision.
      cases packet with
      | initial channel command length data =>
        cases hgathered : r.gathered with
        | some g => rfl
        | none =>
          simp only [begin]
          by_cases hcommand : command = r.expected
          · rw [if_pos hcommand, if_pos hcommand]
            by_cases hlong : maxPayload raw.length < length.toNat
            · rw [if_pos hlong, if_pos hlong]
              rfl
            · rw [if_neg hlong, if_neg hlong]
              exact run_takeIfComplete r r _
          · rw [if_neg hcommand, if_neg hcommand]
            split_ifs <;> rfl
      | continuation channel seq data =>
        cases hgathered : r.gathered with
        | none => rfl
        | some g =>
          simp only [extend]
          by_cases hseq : seq = g.nextSeq
          · rw [if_pos hseq, if_neg (not_not.2 hseq)]
            exact run_takeIfComplete r _ _
          · rw [if_neg hseq, if_pos hseq]
            rfl
    · rw [if_neg hchannel, if_pos hchannel]
      rfl

/-! ### Packets that leave no trace -/

/-- Whether a packet is a keepalive that is passed over: no message has begun, and it is not awaited
itself. -/
def passesOver (r : Reassembler) (raw : Bytes) : Bool :=
  match Packet.decode raw with
  | .ok (.initial channel command _ _) =>
    !r.isStarted && channel == r.channel && command == Command.keepalive.toByte &&
      command != r.expected
  | _ => false

theorem passesOver_iff (r : Reassembler) : r.passesOver raw ↔
    r.gathered = none ∧ IsKeepalive r.channel raw ∧ Command.keepalive.toByte ≠ r.expected := by
  rw [passesOver]
  split
  · rename_i channel command length data hdecode
    simp only [IsKeepalive, hdecode, isStarted, Bool.and_eq_true, Bool.not_eq_true',
      Option.isSome_eq_false_iff, Option.isNone_iff_eq_none, beq_iff_eq, bne_iff_ne, ne_eq,
      Except.ok.injEq, Packet.initial.injEq, exists_and_left, exists_eq', and_true, and_assoc]
    grind
  · rename_i hdecode
    simp only [Bool.false_eq_true, false_iff]
    rintro ⟨-, ⟨length, data, hkeepalive⟩, -⟩
    exact hdecode _ _ _ _ hkeepalive

/-- Whether a packet is refused or passed over. -/
def ignores (r : Reassembler) (raw : Bytes) : Bool :=
  match r.result raw with
  | .error _ => true
  | .ok _ => r.passesOver raw

/-- The packets that are neither refused nor passed over. -/
def kept : Reassembler → List Bytes → List Bytes
  | _, [] => []
  | r, raw :: more => if r.ignores raw then r.kept more else raw :: (r.step raw).kept more

/-- The payloads that packets bring, in order. -/
def payloads (r : Reassembler) (raws : List Bytes) : List Bytes :=
  (r.results raws).filterMap fun result => result.toOption.join

theorem payloads_cons (r : Reassembler) (raw : Bytes) (more : List Bytes) :
    r.payloads (raw :: more) =
      (r.result raw).toOption.join.toList ++ (r.step raw).payloads more := by
  rw [payloads, results_cons, List.filterMap_cons]
  cases (r.result raw).toOption.join <;> rfl

theorem step_of_error {e : Link.Error} (h : r.result raw = .error e) : r.step raw = r := by
  rw [result] at h
  rw [step]
  cases hpush : r.push raw with
  | error e => rfl
  | ok o =>
    rw [hpush] at h
    cases h

/-- A packet that is refused or passed over leaves no trace. -/
theorem step_of_ignores (h : r.ignores raw) :
    r.step raw = r ∧ (r.result raw).toOption.join = none := by
  rcases hresult : r.result raw with e | o
  · exact ⟨step_of_error hresult, rfl⟩
  · have hpassed := r.passesOver_iff.1 (by rwa [ignores, hresult] at h)
    obtain ⟨hidle, ⟨length, data, hdecode⟩, hother⟩ := hpassed
    have hpush := push_eq_ok.2 (.passed hidle hdecode hother)
    rw [result_of_push hpush] at hresult
    cases hresult
    exact ⟨step_of_push hpush, rfl⟩

/-- Some packets that leave no trace are left out of a stream. -/
inductive Thinned : Reassembler → List Bytes → List Bytes → Prop where
  | nil {r : Reassembler} : Thinned r [] []
  | keep {r : Reassembler} {raw : Bytes} {raws less : List Bytes}
    (h : Thinned (r.step raw) raws less) : Thinned r (raw :: raws) (raw :: less)
  | drop {r : Reassembler} {raw : Bytes} {raws less : List Bytes} (hignores : r.ignores raw)
    (h : Thinned r raws less) : Thinned r (raw :: raws) less

/-- **Packets that leave no trace can be left out.** -/
theorem Thinned.payloads_eq (h : r.Thinned raws less) :
    r.payloads less = r.payloads raws ∧ r.after less = r.after raws := by
  induction h with
  | nil => exact ⟨rfl, rfl⟩
  | keep _ ih => exact ⟨by rw [payloads_cons, payloads_cons, ih.1], ih.2⟩
  | @drop r raw raws less hignores _ ih =>
    obtain ⟨hstep, hnothing⟩ := step_of_ignores hignores
    rw [payloads_cons, hnothing, after, after, List.foldl_cons, hstep]
    exact ih

theorem thinned_kept (r : Reassembler) (raws : List Bytes) : r.Thinned raws (r.kept raws) := by
  induction raws generalizing r with
  | nil => exact .nil
  | cons raw raws ih =>
    rw [kept]
    split_ifs with hignores
    · exact .drop hignores (ih r)
    · exact .keep (ih _)

theorem channel_step (r : Reassembler) (raw : Bytes) : (r.step raw).channel = r.channel := by
  rw [step]
  split
  · rfl
  · rename_i next o hpush
    exact (push_eq_ok.1 hpush).frame.1

/-- A packet of another channel leaves no trace. -/
theorem ignores_of_isOf {channel : ChannelId} (hother : channel ≠ r.channel)
    (h : isOf channel raw) : r.ignores raw := by
  rw [isOf] at h
  rw [ignores, result, push]
  cases hdecode : Packet.decode raw with
  | error e => rfl
  | ok p =>
    rw [hdecode, beq_iff_eq] at h
    simp only [if_neg (h.trans_ne hother)]
    rfl

/-- The packets of another channel can be left out, however they are mixed in. -/
theorem thinned_of_shuffled {channel : ChannelId} (h : Shuffled xs ys zs)
    (hother : channel ≠ r.channel) (hys : ∀ raw ∈ ys, isOf channel raw) : r.Thinned zs xs := by
  induction h generalizing r with
  | nil => exact .nil
  | left _ ih => exact .keep (ih (by rwa [channel_step]) hys)
  | right _ ih =>
    obtain ⟨hy, hys⟩ := List.forall_mem_cons.1 hys
    exact .drop (ignores_of_isOf hother hy) (ih hother hys)

/-- **A refused packet leaves no trace.** A push in place has the result of a push and leaves the
reassembler that a push gives; one that is refused leaves it as it was. If all packets that are
refused and all keepalives that are passed over are left out of a stream, the same payloads come in
the same order, and the reassembler is the same after it. So from the packets of two channels, mixed
in whatever way, two reassemblers put together what they put together from their own alone. -/
theorem refused_leaves_no_trace :
    (∀ r raw, (pushInPlace raw).run.run r = (r.result raw, r.step raw)) ∧
    (∀ r raw e s, (pushInPlace raw).run.run r = (.error e, s) → s = r) ∧
    (∀ (r : Reassembler) raws, r.payloads (r.kept raws) = r.payloads raws ∧
      r.after (r.kept raws) = r.after raws) ∧
    ∀ (r s : Reassembler) xs ys zs, r.channel ≠ s.channel →
      (∀ raw ∈ xs, isOf r.channel raw) → (∀ raw ∈ ys, isOf s.channel raw) → Shuffled xs ys zs →
      r.payloads zs = r.payloads xs ∧ s.payloads zs = s.payloads ys := by
  refine ⟨pushInPlace_eq, fun r raw e s h => ?_, fun r raws => (r.thinned_kept raws).payloads_eq,
    fun r s xs ys zs hchannels hxs hys hmixed => ⟨?_, ?_⟩⟩
  · obtain ⟨hresult, rfl⟩ := Prod.mk.inj ((pushInPlace_eq r raw).symm.trans h)
    exact step_of_error hresult
  · exact (thinned_of_shuffled hmixed hchannels.symm hys).payloads_eq.1.symm
  · exact (thinned_of_shuffled hmixed.symm hchannels hxs).payloads_eq.1.symm

/-- A ping of three octets on channel 5: a keepalive ahead of it, and a packet that is out of
order before its last one. -/
def pingOnFive : List Bytes :=
  [[0, 0, 0, 5, 0xBB, 0, 1, 1, 0], [0, 0, 0, 5, 0x81, 0, 3, 1, 2], [0, 0, 0, 5, 7, 9, 9, 9, 9],
    [0, 0, 0, 5, 0, 3, 0, 0, 0]]

/-- A ping of three octets on channel 6, and a packet that is too short. -/
def pingOnSix : List Bytes :=
  [[0, 0, 0, 6, 0x81, 0, 3, 4, 5], [0, 0, 0], [0, 0, 0, 6, 0, 6, 0, 0, 0]]

/-- The two pings mixed. -/
def pingsMixed : List Bytes :=
  [[0, 0, 0, 5, 0xBB, 0, 1, 1, 0], [0, 0, 0, 6, 0x81, 0, 3, 4, 5],
    [0, 0, 0, 5, 0x81, 0, 3, 1, 2], [0, 0, 0], [0, 0, 0, 5, 7, 9, 9, 9, 9],
    [0, 0, 0, 6, 0, 6, 0, 0, 0], [0, 0, 0, 5, 0, 3, 0, 0, 0]]

/-- Both pings come through, each with two packets that leave a trace. -/
theorem refused_leaves_no_trace_in_mixture :
    (await 5 Command.ping.toByte).kept pingsMixed =
      [[0, 0, 0, 5, 0x81, 0, 3, 1, 2], [0, 0, 0, 5, 0, 3, 0, 0, 0]] ∧
    (await 5 Command.ping.toByte).payloads pingsMixed = [[1, 2, 3]] ∧
    (await 6 Command.ping.toByte).payloads pingsMixed = [[4, 5, 6]] ∧
    (pushInPlace [0, 0, 0, 5, 7, 9, 9, 9, 9]).run.run
        ((await 5 Command.ping.toByte).after (pingOnFive.take 2)) =
      (.error (.invalidSequence 0 7), (await 5 Command.ping.toByte).after (pingOnFive.take 2)) := by
  obtain ⟨hpush, -, -, hmixed⟩ := refused_leaves_no_trace
  obtain ⟨hfive, hsix⟩ := hmixed (await 5 Command.ping.toByte) (await 6 Command.ping.toByte)
    pingOnFive pingOnSix pingsMixed (by decide) (by decide) (by decide)
    (.left (.right (.left (.right (.left (.right (.left .nil)))))))
  exact ⟨by decide, hfive.trans (by decide), hsix.trans (by decide), hpush _ _⟩

end Reassembler

end Ctap.Hid
