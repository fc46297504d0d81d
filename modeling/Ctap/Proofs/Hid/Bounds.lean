import Ctap.Proofs.Hid.Acceptance
import Ctap.Proofs.Hid.Rejection

/-!
# Numbers and lengths in a reassembler

Whatever packets are pushed, of whatever lengths, what a reassembler has gathered stays in range: it
is shorter than the declared length, which has 16 bits, and no more continuations are accepted than
there are sequence numbers. So a push can be carried out with numbers that have a limit and never go
below zero, and with strings that are only cut where they have octets: nothing ever fails. What is
given out is the declared length of the data of the packets that were accepted for it.

## Main definitions

* `Fault`, `Checked`: arithmetic and access to octets that can fail.
* `Reassembler.pushChecked`: a push that is carried out with these.
* `Ledger`: a reassembler with the packets that it has accepted for a message.

## Main results

* `Reassembler.pushChecked_eq`: a push does not fail while what was gathered is in range.
* `Ledger.Sound.push`, `Ledger.Sound.after`: what a push and a run keep.
* `Ledger.stays_in_range`: the state, the next push, and what it gives out.
-/

namespace Ctap.Hid

/-! ### Arithmetic that can fail -/

/-- What can be wrong with a number or with the place of an octet. -/
inductive Fault where
  | underflow
  | overflow
  | outOfRange
deriving DecidableEq, Repr

namespace Checked

/-- A difference. -/
def sub (a b : Nat) : Except Fault Nat := if b ≤ a then .ok (a - b) else .error .underflow

/-- A number that was computed. -/
def within (limit n : Nat) : Except Fault Nat := if n ≤ limit then .ok n else .error .overflow

/-- The number after one of eight bits. -/
def succ (n : UInt8) : Except Fault UInt8 := if n = 0xFF then .error .overflow else .ok (n + 1)

/-- An octet of a string. -/
def octet (b : Bytes) (i : Nat) : Except Fault UInt8 :=
  match b[i]? with
  | some value => .ok value
  | none => .error .outOfRange

/-- The first octets of a string. -/
def front (b : Bytes) (n : Nat) : Except Fault Bytes :=
  if n ≤ b.length then .ok (b.take n) else .error .outOfRange

/-- The octets of a string behind the first ones. -/
def behind (b : Bytes) (n : Nat) : Except Fault Bytes :=
  if n ≤ b.length then .ok (b.drop n) else .error .outOfRange

variable {a b limit n : Nat} {octets : Bytes}

theorem sub_eq (h : b ≤ a) : sub a b = .ok (a - b) := if_pos h

theorem within_eq (h : n ≤ limit) : within limit n = .ok n := if_pos h

theorem succ_eq {n : UInt8} (h : n.toNat < 255) : succ n = .ok (n + 1) := by
  refine if_neg ?_
  rintro rfl
  exact absurd h (by decide)

theorem front_min : front octets (min n octets.length) = .ok (octets.take n) := by
  rw [front, if_pos (Nat.min_le_right ..), ← List.take_eq_take_min]

end Checked

open Checked

/-- The packet in a string of octets, read octet by octet. -/
def Packet.decodeChecked (raw : Bytes) : Except Fault (Except Link.Error Packet) :=
  if raw.length < continuationHeaderSize then return .error shortHeader
  else do
    let channel := Bytes.toUInt32 (← octet raw 0) (← octet raw 1) (← octet raw 2) (← octet raw 3)
    let tag ← octet raw 4
    if tag &&& 0x80 = 0 then
      return .ok (.continuation channel tag (← behind raw continuationHeaderSize))
    else if raw.length < initialHeaderSize then return .error shortHeader
    else
      let length := Bytes.toUInt16 (← octet raw 5) (← octet raw 6)
      return .ok (.initial channel (tag &&& 0x7F) length (← behind raw initialHeaderSize))

/-- The longest payload, in numbers up to a limit. -/
def maxPayloadChecked (limit packetSize : Nat) : Except Fault Nat := do
  let first ← sub packetSize initialHeaderSize
  let each ← sub packetSize continuationHeaderSize
  let others ← within limit (128 * each)
  let all ← within limit (first + others)
  return min all 65535

namespace Reassembler

/-- Takes an initial packet, with numbers up to a limit. -/
def beginChecked (limit : Nat) (r : Reassembler) (packetSize : Nat) (command : UInt8)
    (length : UInt16) (data : Bytes) :
    Except Fault (Except Link.Error (Reassembler × Option Bytes)) :=
  if command = r.expected then do
    if (← maxPayloadChecked limit packetSize) < length.toNat then
      return .error (.messageTooLarge length.toNat)
    else
      let taken ← front data (min length.toNat data.length)
      return .ok (r.settle ⟨length.toNat, taken, 0⟩)
  else if command = Command.keepalive.toByte then return .ok (r, none)
  else if command = Command.error.toByte then
    return .error (.deviceError (data.head?.getD ErrorCode.other.toByte))
  else return .error (.unexpectedCommand command)

/-- Takes a continuation of the message `g`, with a number of eight bits for the next one. -/
def extendChecked (r : Reassembler) (g : Gathered) (seq : UInt8) (data : Bytes) :
    Except Fault (Except Link.Error (Reassembler × Option Bytes)) :=
  if seq = g.nextSeq then do
    let missing ← sub g.total g.data.length
    let taken ← front data (min missing data.length)
    let next ← succ g.nextSeq
    return .ok (r.settle ⟨g.total, g.data ++ taken, next⟩)
  else return .error (.invalidSequence g.nextSeq seq)

/-- A push that is carried out with numbers up to a limit, and octet by octet. -/
def pushChecked (limit : Nat) (r : Reassembler) (raw : Bytes) :
    Except Fault (Except Link.Error (Reassembler × Option Bytes)) := do
  match ← Packet.decodeChecked raw with
  | .error e => return .error e
  | .ok packet =>
    if packet.channel = r.channel then
      match packet, r.gathered with
      | .initial _ command length data, none =>
        r.beginChecked limit raw.length command length data
      | .initial .., some g => return .error (.invalidSequence g.nextSeq (← octet raw 4))
      | .continuation .., none => return .error strayContinuation
      | .continuation _ seq data, some g => r.extendChecked g seq data
    else return .error (.channelMismatch r.channel packet.channel)

end Reassembler

/-- What has been gathered of a message is in range. -/
structure Gathered.InRange (g : Gathered) : Prop where
  short : g.data.length < g.total
  total : g.total ≤ 65535
  nextSeq : g.nextSeq.toNat ≤ 128

/-! ### Nothing fails -/

private theorem ok_bind {α β : Type} (a : α) (f : α → Except Fault β) :
    (Except.ok a >>= f) = f a := rfl

theorem Packet.decodeChecked_eq (raw : Bytes) : decodeChecked raw = .ok (decode raw) := by
  rcases raw with _ | ⟨a, _ | ⟨b, _ | ⟨c, _ | ⟨d, _ | ⟨tag, rest⟩⟩⟩⟩⟩
  all_goals try rfl
  have hheader : ¬ (a :: b :: c :: d :: tag :: rest).length < continuationHeaderSize := by
    simp [continuationHeaderSize]
  rw [decodeChecked, if_neg hheader]
  by_cases htype : tag &&& 0x80 = 0
  · simp [decode, octet, behind, ok_bind, htype, continuationHeaderSize]
  · rcases rest with _ | ⟨hi, _ | ⟨lo, data⟩⟩
    · simp [decode, octet, ok_bind, htype, initialHeaderSize]
    · simp [decode, octet, ok_bind, htype, initialHeaderSize]
    · have hlonger : ¬ data.length + 1 + 1 + 1 + 1 + 1 + 1 + 1 < 7 := by omega
      simp [decode, octet, behind, ok_bind, htype, initialHeaderSize, hlonger]

theorem maxPayloadChecked_eq {limit size : Nat} (hsize : initialHeaderSize ≤ size)
    (hlimit : 129 * size ≤ limit) : maxPayloadChecked limit size = .ok (maxPayload size) := by
  have hcontinued : continuationHeaderSize ≤ size := Nat.le_trans (by decide) hsize
  have hothers : 128 * (size - continuationHeaderSize) ≤ limit := by omega
  have hall : size - initialHeaderSize + 128 * (size - continuationHeaderSize) ≤ limit := by omega
  simp only [maxPayloadChecked, sub_eq hsize, sub_eq hcontinued, ok_bind, within_eq hothers,
    within_eq hall]
  rfl

namespace Reassembler

variable {r : Reassembler} {g : Gathered} {raw data : Bytes} {limit : Nat}

theorem beginChecked_eq (hsize : initialHeaderSize ≤ raw.length)
    (hlimit : 129 * raw.length ≤ limit) (command : UInt8) (length : UInt16) :
    r.beginChecked limit raw.length command length data =
      .ok (r.begin raw.length command length data) := by
  simp only [beginChecked, begin, maxPayloadChecked_eq hsize hlimit, front_min, ok_bind]
  split_ifs <;> rfl

/-- A continuation has a sequence number below 128, so the next one has eight bits. -/
theorem extendChecked_eq (hshort : g.data.length < g.total) {seq : UInt8}
    (hseq : seq &&& 0x80 = 0) : r.extendChecked g seq data = .ok (r.extend g seq data) := by
  rw [extendChecked, extend]
  split_ifs with hnext
  · have hsmall : g.nextSeq.toNat < 255 := by
      have := Packet.toNat_lt_of_no_type_bit hseq
      rw [← hnext]
      omega
    simp only [sub_eq (Nat.le_of_lt hshort), front_min, succ_eq hsmall, ok_bind]
    rfl
  · rfl

/-- **A push does not fail** while what was gathered is in range, and its numbers stay below 129
times the length of the packet. -/
theorem pushChecked_eq (h : ∀ g ∈ r.gathered, g.InRange) (hlimit : 129 * raw.length ≤ limit) :
    r.pushChecked limit raw = .ok (r.push raw) := by
  rw [pushChecked, Packet.decodeChecked_eq, ok_bind, push]
  cases hdecode : Packet.decode raw with
  | error e => rfl
  | ok packet =>
    by_cases hchannel : packet.channel = r.channel
    · simp only [if_pos hchannel]
      cases packet with
      | initial channel command length data =>
        cases hgathered : r.gathered with
        | none =>
          refine beginChecked_eq ?_ hlimit command length
          rw [Packet.length_of_initial hdecode]
          exact Nat.le_add_right ..
        | some g =>
          have htag : octet raw 4 = .ok (command ||| 0x80) := by
            rw [(Packet.decode_eq_initial.1 hdecode).2]
            rfl
          simp only [htag, ok_bind]
          rfl
      | continuation channel seq data =>
        cases hgathered : r.gathered with
        | none => rfl
        | some g =>
          exact extendChecked_eq (h g hgathered).short
            (Packet.decode_eq_continuation.1 hdecode).1
    · simp only [if_neg hchannel]
      rfl

end Reassembler

/-! ### Packets that are accepted -/

/-- Continuations of one more piece end with its own. -/
theorem continuations_concat (channel : ChannelId) (seq : UInt8) (pieces : List Bytes)
    (piece : Bytes) : continuations channel seq (pieces ++ [piece]) =
      continuations channel seq pieces ++
        [.continuation channel (seq + UInt8.ofNat pieces.length) piece] := by
  induction pieces generalizing seq with
  | nil => simp [continuations]
  | cons first pieces ih =>
    have hnext : seq + 1 + UInt8.ofNat pieces.length =
        seq + UInt8.ofNat (first :: pieces).length := by
      rw [List.length_cons, UInt8.ofNat_add, UInt8.add_assoc, UInt8.add_comm 1]
      rfl
    rw [List.cons_append, continuations, ih, hnext]
    rfl

/-- A reassembler with the packets that it has accepted for the message that has begun, or for the
last one. -/
structure Ledger where
  reassembler : Reassembler
  accepted : List Packet

namespace Ledger

/-- Nothing has been accepted. -/
def await (channel : ChannelId) (expected : UInt8) : Ledger :=
  ⟨Reassembler.await channel expected, []⟩

/-- The packets that are accepted after a push: one that is refused or passed over is not, and the
one that begins a message is the first. -/
def accept (l : Ledger) (raw : Bytes) : List Packet :=
  match Packet.decode raw with
  | .error _ => l.accepted
  | .ok packet =>
    if l.reassembler.ignores raw then l.accepted
    else if l.reassembler.isStarted then l.accepted ++ [packet]
    else [packet]

/-- Pushes a packet. -/
def push (l : Ledger) (raw : Bytes) : Ledger := ⟨l.reassembler.step raw, l.accept raw⟩

/-- What is kept after packets that were pushed one after the other. -/
def after (l : Ledger) (raws : List Bytes) : Ledger := raws.foldl push l

/-- What was gathered comes from the packets that were accepted for it: the initial packet declares
its length, the continuations are numbered from zero, and it is the beginning of their data. -/
def Accounts (channel : ChannelId) (command : UInt8) (accepted : List Packet) (g : Gathered) :
    Prop :=
  ∃ length first pieces,
    accepted = .initial channel command length first :: continuations channel 0 pieces ∧
    g.total = length.toNat ∧ g.data = (first ++ pieces.flatten).take g.total ∧
    g.nextSeq.toNat = pieces.length ∧ pieces.length ≤ 128

/-- What holds between pushes. -/
def Sound (l : Ledger) : Prop :=
  ∀ g ∈ l.reassembler.gathered, g.data.length < g.total ∧
    Accounts l.reassembler.channel l.reassembler.expected l.accepted g

variable {l : Ledger} {r next : Reassembler} {g : Gathered} {o : Option Bytes}
  {raw payload : Bytes} {accepted : List Packet} {channel : ChannelId} {command : UInt8}

theorem Accounts.total_le (h : Accounts channel command accepted g) : g.total ≤ 65535 := by
  obtain ⟨length, first, pieces, -, htotal, -⟩ := h
  rw [htotal]
  exact Nat.le_of_lt_succ length.toNat_lt

theorem Accounts.nextSeq_le (h : Accounts channel command accepted g) : g.nextSeq.toNat ≤ 128 := by
  obtain ⟨length, first, pieces, -, -, -, hseq, hpieces⟩ := h
  rwa [hseq]

theorem Sound.inRange (h : l.Sound) : ∀ g ∈ l.reassembler.gathered, g.InRange :=
  fun g hg => ⟨(h g hg).1, (h g hg).2.total_le, (h g hg).2.nextSeq_le⟩

theorem accounts_begun (channel : ChannelId) (command : UInt8) (length : UInt16) (data : Bytes) :
    Accounts channel command [.initial channel command length data]
      ⟨length.toNat, data.take length.toNat, 0⟩ :=
  ⟨length, data, [], rfl, rfl, by simp, rfl, Nat.zero_le 128⟩

/-- The next continuation accounts for what it adds. -/
theorem Accounts.continued (h : Accounts channel command accepted g) {data : Bytes}
    (hseq : g.nextSeq.toNat < 128) :
    Accounts channel command (accepted ++ [.continuation channel g.nextSeq data])
      ⟨g.total, g.data ++ data.take (g.total - g.data.length), g.nextSeq + 1⟩ := by
  obtain ⟨length, first, pieces, rfl, htotal, hdata, hnumber, -⟩ := h
  have hlast : (0 : UInt8) + UInt8.ofNat pieces.length = g.nextSeq := by
    rw [UInt8.zero_add, ← hnumber, UInt8.ofNat_toNat]
  have hnext : (g.nextSeq + 1).toNat = pieces.length + 1 := by
    rw [UInt8.toNat_add, hnumber]
    simp only [UInt8.reduceToNat]
    omega
  refine ⟨length, first, pieces ++ [data], ?_, htotal, ?_, ?_, ?_⟩
  · rw [continuations_concat, hlast]
    rfl
  · -- What is missing does not depend on how much of the data was gathered.
    have hmissing : g.total - g.data.length = g.total - (first ++ pieces.flatten).length := by
      rw [hdata, List.length_take]
      omega
    rw [List.flatten_append, List.flatten_singleton, ← List.append_assoc, List.take_append, ← hdata,
      hmissing]
  · rw [hnext, List.length_append, List.length_singleton]
  · rw [List.length_append, List.length_singleton]
    omega

theorem accept_of_ignores (h : l.reassembler.ignores raw) : l.accept raw = l.accepted := by
  rw [accept]
  split
  · rfl
  · exact if_pos h

theorem accept_of_kept {packet : Packet} (hdecode : Packet.decode raw = .ok packet)
    (h : ¬ l.reassembler.ignores raw) : l.accept raw =
      if l.reassembler.isStarted then l.accepted ++ [packet] else [packet] := by
  rw [accept, hdecode]
  exact if_neg h

/-- A packet that is taken is ignored only if it is a keepalive that is passed over. -/
theorem ignores_of_takes (h : l.reassembler.Takes raw next o) : l.reassembler.ignores raw ↔
    l.reassembler.gathered = none ∧ IsKeepalive l.reassembler.channel raw ∧
      Command.keepalive.toByte ≠ l.reassembler.expected := by
  rw [Reassembler.ignores, Reassembler.result_of_push (Reassembler.push_eq_ok.2 h)]
  exact l.reassembler.passesOver_iff

/-- A packet that is taken is passed over, or it accounts for what is then given out or kept. -/
theorem Sound.accounts (h : l.Sound) (htakes : l.reassembler.Takes raw next o) :
    next = l.reassembler ∧ o = none ∧ l.accept raw = l.accepted ∨
      ∃ g, l.reassembler.settle g = (next, o) ∧ g.data.length ≤ g.total ∧
        Accounts l.reassembler.channel l.reassembler.expected (l.accept raw) g := by
  have hignores := ignores_of_takes htakes
  cases htakes with
  | passed idle decode other =>
    exact .inl ⟨rfl, rfl, accept_of_ignores (hignores.2 ⟨idle, ⟨_, _, decode⟩, other⟩)⟩
  | @begun length data idle decode fits =>
    have hkept : ¬ l.reassembler.ignores raw := by
      rw [hignores]
      rintro ⟨-, ⟨_, _, hkeepalive⟩, hother⟩
      have hsame := Except.ok.inj (decode.symm.trans hkeepalive)
      exact hother (Packet.initial.inj hsame).2.1.symm
    have hidle : ¬ l.reassembler.isStarted := by simp [Reassembler.isStarted, idle]
    refine .inr ⟨_, rfl, List.length_take_le .., ?_⟩
    rw [accept_of_kept decode hkept, if_neg hidle]
    exact accounts_begun ..
  | @continued g data gathered decode =>
    have hstarted : l.reassembler.isStarted := by simp [Reassembler.isStarted, gathered]
    have hkept : ¬ l.reassembler.ignores raw := by
      rw [hignores, gathered]
      rintro ⟨hidle, -⟩
      cases hidle
    obtain ⟨hshort, haccounts⟩ := h g gathered
    refine .inr ⟨_, rfl, ?_, ?_⟩
    · simp only [List.length_append, List.length_take]
      omega
    · rw [accept_of_kept decode hkept, if_pos hstarted]
      exact haccounts.continued
        (Packet.toNat_lt_of_no_type_bit (Packet.decode_eq_continuation.1 decode).1)

/-- **A push keeps a ledger sound.** -/
theorem Sound.push (h : l.Sound) (raw : Bytes) : (l.push raw).Sound := by
  cases hpush : l.reassembler.push raw with
  | error e =>
    have hignores : l.reassembler.ignores raw := by
      rw [Reassembler.ignores, Reassembler.result, hpush]
      rfl
    rwa [Ledger.push, (Reassembler.step_of_ignores hignores).1, accept_of_ignores hignores]
  | ok o =>
    obtain ⟨next, o⟩ := o
    have htakes := Reassembler.push_eq_ok.1 hpush
    obtain ⟨hchannel, hexpected⟩ := htakes.frame
    rw [Ledger.push, Reassembler.step_of_push hpush]
    rcases h.accounts htakes with ⟨rfl, -, haccept⟩ | ⟨g, hsettle, hle, haccounts⟩
    · rwa [haccept]
    · rw [Reassembler.settle_eq] at hsettle
      intro g' hg'
      split_ifs at hsettle with hcomplete
      · cases hsettle
        cases hg'
      · cases hsettle
        cases hg'
        exact ⟨Nat.lt_of_le_of_ne hle hcomplete, haccounts⟩

/-- A push changes neither the channel nor the command that is awaited. -/
theorem push_frame (l : Ledger) (raw : Bytes) :
    (l.push raw).reassembler.channel = l.reassembler.channel ∧
      (l.push raw).reassembler.expected = l.reassembler.expected := by
  simp only [push, Reassembler.step]
  split
  · exact ⟨rfl, rfl⟩
  · rename_i hpush
    exact (Reassembler.push_eq_ok.1 hpush).frame

/-- **A run keeps a ledger sound.** -/
theorem Sound.after (h : l.Sound) (raws : List Bytes) : (l.after raws).Sound ∧
    (l.after raws).reassembler.channel = l.reassembler.channel ∧
    (l.after raws).reassembler.expected = l.reassembler.expected := by
  induction raws generalizing l with
  | nil => exact ⟨h, rfl, rfl⟩
  | cons raw raws ih =>
    obtain ⟨hchannel, hexpected⟩ := l.push_frame raw
    have hrest := ih (h.push raw)
    rwa [hchannel, hexpected] at hrest

theorem sound_await (channel : ChannelId) (expected : UInt8) : (await channel expected).Sound := by
  intro g hg
  cases hg

/-- A payload that is given out has the declared length and is all that was gathered. -/
theorem Sound.gives (h : l.Sound) (hresult : l.reassembler.result raw = .ok (some payload)) :
    ∃ g, g.data = payload ∧ payload.length = g.total ∧
      Accounts l.reassembler.channel l.reassembler.expected (l.push raw).accepted g := by
  obtain ⟨next, htakes⟩ := Reassembler.result_eq_ok.1 hresult
  rcases h.accounts htakes with ⟨-, hnothing, -⟩ | ⟨g, hsettle, -, haccounts⟩
  · cases hnothing
  · rw [Reassembler.settle_eq] at hsettle
    split_ifs at hsettle with hcomplete
    · cases hsettle
      exact ⟨g, rfl, hcomplete, haccounts⟩
    · cases hsettle

/-- **A reassembler stays in range.** Packets of any octets and any lengths are pushed, on after
errors. Then what was gathered is shorter than the declared length, which is at most 65535, and the
next sequence number is at most 128 and counts the continuations that were accepted. The next push
of whatever packet goes nowhere below zero, beyond eight bits or behind the end of a string; nor
does it exceed a limit, if 129 times the length of the packet does not. (The limit of 64 bits is
beyond that for every packet in a memory of 56 bits.) A payload that it gives out has the length
that the initial packet declares, and is the beginning of the data of the packets that were accepted
for it, of which at most 128 are continuations. -/
theorem stays_in_range (channel : ChannelId) (expected : UInt8) (raws : List Bytes) :
    (∀ g ∈ ((await channel expected).after raws).reassembler.gathered, g.InRange ∧
      Accounts channel (expected &&& 0x7F) ((await channel expected).after raws).accepted g) ∧
    (∀ limit raw, 129 * raw.length ≤ limit →
      ((await channel expected).after raws).reassembler.pushChecked limit raw =
        .ok (((await channel expected).after raws).reassembler.push raw)) ∧
    ∀ raw payload,
      ((await channel expected).after raws).reassembler.result raw = .ok (some payload) →
      ∃ length first pieces,
        (((await channel expected).after raws).push raw).accepted =
          .initial channel (expected &&& 0x7F) length first :: continuations channel 0 pieces ∧
        pieces.length ≤ 128 ∧ payload.length = length.toNat ∧
        payload = (first ++ pieces.flatten).take length.toNat := by
  obtain ⟨hsound, hchannel, hexpected⟩ := (sound_await channel expected).after raws
  set l := (await channel expected).after raws
  replace hchannel : l.reassembler.channel = channel := hchannel
  replace hexpected : l.reassembler.expected = expected &&& 0x7F := hexpected
  refine ⟨fun g hg => ⟨hsound.inRange g hg, ?_⟩, fun limit raw => ?_, fun raw payload hresult => ?_⟩
  · rw [← hchannel, ← hexpected]
    exact (hsound g hg).2
  · exact Reassembler.pushChecked_eq hsound.inRange
  · obtain ⟨g, rfl, htotal, haccounts⟩ := hsound.gives hresult
    rw [hchannel, hexpected] at haccounts
    obtain ⟨length, first, pieces, haccepted, hdeclared, hdata, -, hpieces⟩ := haccounts
    rw [hdeclared] at htotal hdata
    exact ⟨length, first, pieces, haccepted, hpieces, htotal, hdata⟩

/-- A ping of nine octets, in packets of different lengths. A second initial packet is refused, and
a continuation has no data. -/
def pingInPieces : List Bytes :=
  [[0, 0, 0, 5, 0x81, 0, 9, 1, 2], [0, 0, 0, 5, 0x81, 0, 1], [0, 0, 0, 5, 0],
    [0, 0, 0, 5, 1, 3, 4, 5, 6, 7]]

/-- Its last packet holds two octets more than are missing. -/
theorem stays_in_range_in_pieces :
    (⟨9, [1, 2, 3, 4, 5, 6, 7], 2⟩ : Gathered).InRange ∧
    ((await 5 Command.ping.toByte).after pingInPieces).reassembler.pushChecked 0xFFFFFFFF
        [0, 0, 0, 5, 2, 8, 9, 10, 11] =
      .ok (((await 5 Command.ping.toByte).after pingInPieces).reassembler.push
        [0, 0, 0, 5, 2, 8, 9, 10, 11]) ∧
    ∃ length first pieces,
      (((await 5 Command.ping.toByte).after pingInPieces).push
          [0, 0, 0, 5, 2, 8, 9, 10, 11]).accepted =
        .initial 5 Command.ping.toByte length first :: continuations 5 0 pieces ∧
      pieces.length ≤ 128 ∧ [1, 2, 3, 4, 5, 6, 7, 8, 9].length = length.toNat ∧
      [1, 2, 3, 4, 5, 6, 7, 8, 9] = (first ++ pieces.flatten).take length.toNat := by
  obtain ⟨hrange, hpush, hpayload⟩ := stays_in_range 5 Command.ping.toByte pingInPieces
  exact ⟨(hrange ⟨9, [1, 2, 3, 4, 5, 6, 7], 2⟩ (by decide)).1, hpush _ _ (by decide),
    hpayload [0, 0, 0, 5, 2, 8, 9, 10, 11] [1, 2, 3, 4, 5, 6, 7, 8, 9] (by decide)⟩

end Ledger

end Ctap.Hid
