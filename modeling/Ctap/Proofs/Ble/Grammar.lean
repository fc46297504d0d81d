import Ctap.Proofs.Ble.Framing
import Ctap.Proofs.Conversation
import Mathlib.Data.List.Induction

/-!
# What a reader makes of a queue

Whatever is queued, a reader takes it as an answer in one way or refuses it for one reason. An
answer is a header frame with a declared length, behind frames that are passed over, and the
shortest run of continuations, numbered from 0 to 127 and again from 0, whose data reaches that
length together with the data of the header frame. A queue that does not begin with an answer is
refused because of the first frame that does not fit, or because it is at its end.

## Main definitions

* `IsFiller`, `Passage`: the frames that are passed over, and an answer as far as it has come.
* `Accepts`: a queue that begins with an answer.
* `Refuses`: a queue that does not, and why.

## Main results

* `accepts_or_refuses`: every queue is accepted or refused.
* `Exchange.concludes_receive`: a reader between two link operations ends with a queue as it does
  with all frames at once.
* `received_as_accepted`: what becomes of a queue that is read.
-/

namespace Ctap.Ble

open Link (Concludes Ends)

/-! ### The frames of an answer -/

/-- A frame that is passed over ahead of a header: a keepalive, and also a continuation if the
reader resynchronises. -/
def IsFiller (resync : Bool) (frame : Bytes) : Prop :=
  ∃ first rest, frame = first :: rest ∧ (first = 0x82 ∨ resync = true ∧ first < 0x80)

/-- Continuations with these data: the numbers are 0 to 127, and again from 0. -/
def numbered (pieces : List Bytes) : List Bytes :=
  pieces.mapIdx fun i piece => UInt8.ofNat (i % 128) :: piece

/-- Frames of an answer as far as it has come: each continuation is needed for the declared
length. -/
structure Passage (resync : Bool) where
  ahead : List Bytes
  command : UInt8
  hi : UInt8
  lo : UInt8
  first : Bytes
  pieces : List Bytes
  filler : ∀ frame ∈ ahead, IsFiller resync frame
  isCommand : 0x80 ≤ command
  noKeepalive : command ≠ 0x82
  noError : command ≠ 0xBF
  /-- Something is missing ahead of each continuation. -/
  needed : ∀ j < pieces.length,
    (first ++ (pieces.take j).flatten).length < 256 * hi.toNat + lo.toNat

namespace Passage

variable {resync : Bool} (p : Passage resync)

/-- The declared length. -/
def total : Nat := 256 * p.hi.toNat + p.lo.toNat

/-- The data of the header frame and of the continuations. -/
def data : Bytes := p.first ++ p.pieces.flatten

/-- The number of the next continuation. -/
def next : UInt8 := UInt8.ofNat (p.pieces.length % 128)

/-- All frames. -/
def frames : List Bytes :=
  p.ahead ++ (p.command :: p.hi :: p.lo :: p.first) :: numbered p.pieces

end Passage

/-- A queue begins with an answer, whose payload has the declared length. -/
def Accepts (resync : Bool) (queue : List Bytes) (payload : Bytes) (rest : List Bytes) : Prop :=
  ∃ p : Passage resync, queue = p.frames ++ rest ∧ p.total ≤ p.data.length ∧
    payload = p.data.take p.total

/-- Why a frame is refused where a header should be. -/
inductive HeaderFault : Bytes → Link.Error → Prop where
  | empty : HeaderFault [] (.invalidPacket "empty BLE frame")
  | stray {first : UInt8} (rest : Bytes) (low : first < 0x80) :
    HeaderFault (first :: rest) (.invalidPacket "BLE response header without command bit")
  | error (rest : Bytes) :
    HeaderFault (0xBF :: rest) (.deviceError ((0xBF :: rest)[3]?.getD 0))
  | short {first : UInt8} {rest : Bytes} (high : 0x80 ≤ first) (other : first ≠ 0xBF)
    (length : (first :: rest).length < 3) :
    HeaderFault (first :: rest) (.invalidPacket "BLE response header shorter than 3 bytes")

/-- Why a frame is refused where a continuation with a certain number should be. -/
inductive PieceFault (number : UInt8) : Bytes → Link.Error → Prop where
  | empty : PieceFault number [] (.invalidPacket "empty BLE frame")
  /-- It has another number, or is no continuation. -/
  | other {first : UInt8} (rest : Bytes) (other : first ≠ number) :
    PieceFault number (first :: rest) (.invalidSequence number first)

/-- A queue does not begin with an answer: why, and what is left when this is found out. -/
inductive Refuses (resync : Bool) : List Bytes → Link.Error → List Bytes → Prop where
  | headless {ahead : List Bytes} (filler : ∀ frame ∈ ahead, IsFiller resync frame) :
    Refuses resync ahead .disconnected []
  /-- The frame in the place of the header does not fit. -/
  | header {ahead : List Bytes} {frame : Bytes} {cause : Link.Error}
    (filler : ∀ frame ∈ ahead, IsFiller resync frame) (notFiller : ¬ IsFiller resync frame)
    (fault : HeaderFault frame cause) (rest : List Bytes) :
    Refuses resync (ahead ++ frame :: rest) cause rest
  /-- The queue is at its end before the declared length is reached. -/
  | cut (p : Passage resync) (short : p.data.length < p.total) :
    Refuses resync p.frames .disconnected []
  /-- The frame in the place of a continuation does not fit. -/
  | piece (p : Passage resync) (short : p.data.length < p.total) {frame : Bytes}
    {cause : Link.Error} (fault : PieceFault p.next frame cause) (rest : List Bytes) :
    Refuses resync (p.frames ++ frame :: rest) cause rest

/-! ### Octets -/

theorem and_high_eq_zero_iff (octet : UInt8) : octet &&& 0x80 = 0 ↔ octet < 0x80 := by
  obtain ⟨octet⟩ := octet
  revert octet
  decide +kernel

theorem isFiller_iff {resync : Bool} {frame : Bytes} :
    IsFiller resync frame ↔ Reader.skips resync frame = true := by
  rcases frame with _ | ⟨first, rest⟩
  · simp [IsFiller, Reader.skips]
  · simp [IsFiller, Reader.skips, Command.toByte, and_high_eq_zero_iff]

theorem numbered_concat (pieces : List Bytes) (piece : Bytes) :
    numbered (pieces ++ [piece]) =
      numbered pieces ++ [UInt8.ofNat (pieces.length % 128) :: piece] :=
  List.mapIdx_concat

theorem nextSeq_number (n : Nat) :
    nextSeq (UInt8.ofNat (n % 128)) = UInt8.ofNat ((n + 1) % 128) := by
  rw [Nat.add_mod]
  generalize hk : n % 128 = k
  have hless : k < 128 := hk ▸ Nat.mod_lt _ (by decide)
  clear hk n
  revert k
  decide +kernel

/-! ### Reading -/

variable {resync : Bool}

theorem receiveMessage_error {r : Reader} {frame : Bytes} {cause : Link.Error}
    (h : r.push frame = .error cause) (rest : List Bytes) :
    receiveMessage r (frame :: rest) = (.error cause, rest) := by
  rw [receiveMessage, h]

theorem receiveMessage_none {r next : Reader} {frame : Bytes} (h : r.push frame = .ok (next, none))
    (rest : List Bytes) : receiveMessage r (frame :: rest) = receiveMessage next rest := by
  rw [receiveMessage, h]

theorem receiveMessage_some {r next : Reader} {frame payload : Bytes}
    (h : r.push frame = .ok (next, some payload)) (rest : List Bytes) :
    receiveMessage r (frame :: rest) = (.ok payload, rest) := by
  rw [receiveMessage, h]

/-- Frames that are passed over leave the reader as it was. -/
theorem receiveMessage_fillers {ahead : List Bytes} (h : ∀ frame ∈ ahead, IsFiller resync frame)
    (queue : List Bytes) :
    receiveMessage (.awaiting resync) (ahead ++ queue) =
      receiveMessage (.awaiting resync) queue := by
  induction ahead with
  | nil => rfl
  | cons frame ahead ih =>
    obtain ⟨hframe, hahead⟩ := List.forall_mem_cons.1 h
    have hpush : (Reader.awaiting resync).push frame = .ok (.awaiting resync, none) := by
      rw [Reader.push, if_pos (isFiller_iff.1 hframe)]
    rw [List.cons_append, receiveMessage_none hpush, ih hahead]

/-- A frame that is taken and adds to the data leaves the reader gathering while something is
missing. -/
theorem receiveMessage_settle {r : Reader} {frame data : Bytes} {total : Nat} {seq : UInt8}
    (h : r.push frame = .ok (Reader.settle total (data.take total) seq)) (rest : List Bytes) :
    receiveMessage r (frame :: rest) =
      if data.length < total then receiveMessage (.gathering total data seq) rest
      else (.ok (data.take total), rest) := by
  by_cases hshort : data.length < total
  · rw [Reader.settle, List.take_of_length_le (Nat.le_of_lt hshort), if_pos hshort] at h
    rw [receiveMessage_none h, if_pos hshort]
  · have hlength : ¬ (data.take total).length < total := by
      rw [List.length_take]
      omega
    rw [Reader.settle, if_neg hlength] at h
    rw [receiveMessage_some h, if_neg hshort]

namespace Passage

/-- One more continuation, while something is missing. -/
def extend (p : Passage resync) (short : p.data.length < p.total) (piece : Bytes) :
    Passage resync where
  __ := p
  pieces := p.pieces ++ [piece]
  needed j hj := by
    rw [List.length_append, List.length_singleton] at hj
    rw [List.take_append_of_le_length (Nat.le_of_lt_succ hj)]
    rcases Nat.lt_or_eq_of_le (Nat.le_of_lt_succ hj) with hless | rfl
    · exact p.needed j hless
    · rwa [List.take_length]

variable (p : Passage resync)

section

variable (short : p.data.length < p.total) (piece : Bytes)

theorem data_extend : (p.extend short piece).data = p.data ++ piece := by
  simp [data, extend]

theorem next_extend : (p.extend short piece).next = nextSeq p.next := by
  simp only [next, extend, List.length_append, List.length_singleton, nextSeq_number]

theorem frames_extend : (p.extend short piece).frames = p.frames ++ [p.next :: piece] := by
  simp [frames, extend, next, numbered_concat]

end

/-- A passage is a header frame with what is ahead of it, and continuations one after the other. -/
protected theorem induction {P : Passage resync → Prop} (header : ∀ p, p.pieces = [] → P p)
    (extend : ∀ p short piece, P p → P (p.extend short piece)) (p : Passage resync) : P p := by
  obtain ⟨ahead, command, hi, lo, first, pieces, filler, isCommand, noKeepalive, noError,
    needed⟩ := p
  induction pieces using List.reverseRecOn with
  | nil => exact header _ rfl
  | append_singleton pieces piece ih =>
    have htake {j : Nat} (hj : j ≤ pieces.length) : (pieces ++ [piece]).take j = pieces.take j :=
      List.take_append_of_le_length hj
    have hless {j : Nat} (hj : j ≤ pieces.length) :
        (first ++ (pieces.take j).flatten).length < 256 * hi.toNat + lo.toNat := by
      rw [← htake hj]
      exact needed j (by rw [List.length_append]; exact Nat.lt_succ_of_le hj)
    refine extend ⟨ahead, command, hi, lo, first, pieces, filler, isCommand, noKeepalive, noError,
      fun j hj => hless (Nat.le_of_lt hj)⟩ ?_ piece (ih _)
    have hall := hless (Nat.le_refl _)
    rwa [List.take_length] at hall

/-- The header frame is taken. -/
theorem push_header : (Reader.awaiting resync).push (p.command :: p.hi :: p.lo :: p.first) =
    .ok (Reader.settle p.total (p.first.take p.total) 0) := by
  have hhigh : ¬ p.command &&& 0x80 = 0 := by
    rw [and_high_eq_zero_iff, UInt8.not_lt]
    exact p.isCommand
  have hskips : Reader.skips resync (p.command :: p.hi :: p.lo :: p.first) = false := by
    simp [Reader.skips, Command.toByte, p.noKeepalive, hhigh]
  have htotal : (Bytes.toUInt16 p.hi p.lo).toNat = p.total := by
    rw [Bytes.toNat_toUInt16, total, Nat.mul_comm]
  simp only [Reader.push, hskips, Bool.false_eq_true, if_false, Header.parse, if_neg hhigh,
    Command.toByte, if_neg p.noError, htotal]

theorem push_next (short : p.data.length < p.total) (piece : Bytes) :
    (Reader.gathering p.total p.data p.next).push (p.next :: piece) =
      .ok (Reader.settle p.total ((p.data ++ piece).take p.total) (nextSeq p.next)) := by
  rw [Reader.push_continuation, List.take_append, List.take_of_length_le (Nat.le_of_lt short)]

/-- **A reader takes the frames of a passage**, and has the payload if nothing is missing. -/
theorem receiveMessage_frames (queue : List Bytes) :
    receiveMessage (.awaiting resync) (p.frames ++ queue) =
      if p.data.length < p.total then receiveMessage (.gathering p.total p.data p.next) queue
      else (.ok (p.data.take p.total), queue) := by
  induction p using Passage.induction generalizing queue with
  | header p hpieces =>
    have hdata : p.data = p.first := by simp [data, hpieces]
    have hnext : p.next = 0 := by simp [next, hpieces]
    have hframes : p.frames ++ queue =
        p.ahead ++ (p.command :: p.hi :: p.lo :: p.first) :: queue := by
      simp [frames, hpieces, numbered]
    rw [hframes, receiveMessage_fillers p.filler, receiveMessage_settle p.push_header, hdata, hnext]
  | extend p short piece ih =>
    rw [frames_extend, List.append_assoc, ih, if_pos short, List.singleton_append,
      receiveMessage_settle (p.push_next short piece), data_extend, next_extend]
    rfl

end Passage

/-! ### Every queue is accepted or refused -/

private theorem accepts_or_refuses_behind (p : Passage resync) (short : p.data.length < p.total)
    (queue : List Bytes) :
    (∃ payload rest, Accepts resync (p.frames ++ queue) payload rest) ∨
      ∃ cause rest, Refuses resync (p.frames ++ queue) cause rest := by
  induction queue generalizing p with
  | nil => exact .inr ⟨_, _, by rw [List.append_nil]; exact .cut p short⟩
  | cons frame queue ih =>
    rcases frame with _ | ⟨first, piece⟩
    · exact .inr ⟨_, _, .piece p short .empty queue⟩
    · by_cases hfirst : first = p.next
      · have hframes : p.frames ++ (first :: piece) :: queue =
            (p.extend short piece).frames ++ queue := by
          rw [Passage.frames_extend, hfirst, List.append_assoc, List.singleton_append]
        rw [hframes]
        rcases Nat.lt_or_ge (p.extend short piece).data.length (p.extend short piece).total with
          hshort | henough
        · exact ih _ hshort
        · exact .inl ⟨_, _, p.extend short piece, rfl, henough, rfl⟩
      · exact .inr ⟨_, _, .piece p short (.other piece hfirst) queue⟩

/-- **Every queue is accepted or refused.** -/
theorem accepts_or_refuses (resync : Bool) (queue : List Bytes) :
    (∃ payload rest, Accepts resync queue payload rest) ∨
      ∃ cause rest, Refuses resync queue cause rest := by
  suffices hall : ∀ ahead, (∀ frame ∈ ahead, IsFiller resync frame) →
      (∃ payload rest, Accepts resync (ahead ++ queue) payload rest) ∨
        ∃ cause rest, Refuses resync (ahead ++ queue) cause rest from hall [] (by simp)
  induction queue with
  | nil => exact fun ahead hahead => .inr ⟨_, _, by rw [List.append_nil]; exact .headless hahead⟩
  | cons frame queue ih =>
    intro ahead hahead
    by_cases hfiller : IsFiller resync frame
    · rw [List.append_cons]
      refine ih _ fun f hf => ?_
      rcases List.mem_append.1 hf with hf | hf
      · exact hahead f hf
      · exact List.mem_singleton.1 hf ▸ hfiller
    · -- The frame is in the place of the header.
      rcases frame with _ | ⟨first, rest⟩
      · exact .inr ⟨_, _, .header hahead hfiller .empty queue⟩
      · rcases UInt8.lt_or_le first 0x80 with hlow | hhigh
        · exact .inr ⟨_, _, .header hahead hfiller (.stray rest hlow) queue⟩
        · by_cases herror : first = 0xBF
          · subst herror
            exact .inr ⟨_, _, .header hahead hfiller (.error rest) queue⟩
          · rcases rest with _ | ⟨hi, _ | ⟨lo, data⟩⟩
            · exact .inr ⟨_, _, .header hahead hfiller (.short hhigh herror (by simp)) queue⟩
            · exact .inr ⟨_, _, .header hahead hfiller (.short hhigh herror (by simp)) queue⟩
            · have hkeepalive : first ≠ 0x82 := fun h => hfiller ⟨_, _, rfl, .inl h⟩
              let p : Passage resync := ⟨ahead, first, hi, lo, data, [], hahead, hhigh, hkeepalive,
                herror, fun j hj => absurd hj (Nat.not_lt_zero j)⟩
              have hframes : ahead ++ (first :: hi :: lo :: data) :: queue = p.frames ++ queue := by
                simp [Passage.frames, p, numbered]
              rw [hframes]
              rcases Nat.lt_or_ge p.data.length p.total with hshort | henough
              · exact accepts_or_refuses_behind p hshort queue
              · exact .inl ⟨_, _, p, rfl, henough, rfl⟩

/-- A reader refuses a frame that is no header. -/
theorem push_of_headerFault {frame : Bytes} {cause : Link.Error} (hfiller : ¬ IsFiller resync frame)
    (h : HeaderFault frame cause) : (Reader.awaiting resync).push frame = .error cause := by
  rw [Reader.push, if_neg (isFiller_iff.not.1 hfiller)]
  cases h with
  | empty => rfl
  | stray rest low => simp only [Header.parse, if_pos ((and_high_eq_zero_iff _).2 low)]; rfl
  | error rest => rfl
  | @short first rest high other length =>
    have hhigh : ¬ first &&& 0x80 = 0 := by rwa [and_high_eq_zero_iff, UInt8.not_lt]
    have herror : ¬ first = Command.error.toByte := other
    rcases rest with _ | ⟨hi, _ | ⟨lo, rest⟩⟩
    · simp only [Header.parse, if_neg hhigh, if_neg herror]; rfl
    · simp only [Header.parse, if_neg hhigh, if_neg herror]; rfl
    · simp only [List.length_cons] at length
      omega

/-- A reader refuses a frame that is not the next continuation. -/
theorem push_of_pieceFault {total : Nat} {data frame : Bytes} {number : UInt8} {cause : Link.Error}
    (h : PieceFault number frame cause) :
    (Reader.gathering total data number).push frame = .error cause := by
  cases h with
  | empty => rfl
  | other rest other => rw [Reader.push, if_neg other]

theorem Accepts.received {queue rest : List Bytes} {payload : Bytes}
    (h : Accepts resync queue payload rest) :
    receiveMessage (.awaiting resync) queue = (.ok payload, rest) := by
  obtain ⟨p, rfl, henough, rfl⟩ := h
  rw [p.receiveMessage_frames, if_neg (Nat.not_lt.2 henough)]

theorem Refuses.received {queue rest : List Bytes} {cause : Link.Error}
    (h : Refuses resync queue cause rest) :
    receiveMessage (.awaiting resync) queue = (.error cause, rest) := by
  cases h with
  | headless filler =>
    have hread := receiveMessage_fillers filler []
    rwa [List.append_nil, receiveMessage] at hread
  | header filler notFiller fault rest =>
    rw [receiveMessage_fillers filler, receiveMessage_error (push_of_headerFault notFiller fault)]
  | cut p short =>
    have hread := p.receiveMessage_frames []
    rwa [List.append_nil, if_pos short, receiveMessage] at hread
  | piece p short fault rest =>
    rw [p.receiveMessage_frames, if_pos short, receiveMessage_error (push_of_pieceFault fault)]

/-! ### Between two link operations -/

/-- A reader that takes frames one by one from a queue that is closed ends with what it makes of the
queue. -/
theorem Exchange.concludes_receive (r : Reader) (queue : List Bytes) :
    Concludes (some .disconnected) (Exchange.reading r) queue [] (receiveMessage r queue).1
      (receiveMessage r queue).2 := by
  induction queue generalizing r with
  | nil => exact .lose rfl rfl (.stop rfl)
  | cons frame queue ih =>
    refine .receive rfl ?_
    simp only [Link.Conversation.received, Exchange.received]
    rcases hpush : r.push frame with cause | ⟨next, _ | payload⟩
    · rw [receiveMessage_error hpush]
      exact .stop rfl
    · rw [receiveMessage_none hpush]
      exact ih next
    · rw [receiveMessage_some hpush]
      exact .stop rfl

theorem Accepts.concludes {queue rest : List Bytes} {payload : Bytes}
    (h : Accepts resync queue payload rest) :
    Concludes (some .disconnected) (Exchange.receive resync) queue [] (.ok payload) rest := by
  have hread := Exchange.concludes_receive (.awaiting resync) queue
  rwa [h.received] at hread

theorem Refuses.concludes {queue rest : List Bytes} {cause : Link.Error}
    (h : Refuses resync queue cause rest) :
    Concludes (some .disconnected) (Exchange.receive resync) queue [] (.error cause) rest := by
  have hread := Exchange.concludes_receive (.awaiting resync) queue
  rwa [h.received] at hread

/-- **A queue is read as it is accepted or refused.** With every queue a reader comes to an end, and
sends nothing. It has a payload if and only if the queue begins with an answer, and then it is what
the declared length takes of its data. In all other cases it fails, for the one reason for which the
queue is refused. What is behind the frames that decide stays in the queue. -/
theorem received_as_accepted (resync : Bool) (queue : List Bytes) :
    (∃ result rest, Ends (some .disconnected) (Exchange.receive resync) queue [] result rest) ∧
    (∀ payload rest,
      Concludes (some .disconnected) (Exchange.receive resync) queue [] (.ok payload) rest ↔
        ∃ p : Passage resync, queue = p.frames ++ rest ∧ p.total ≤ p.data.length ∧
          payload = p.data.take p.total ∧ payload.length = p.total) ∧
    ∀ cause rest,
      Concludes (some .disconnected) (Exchange.receive resync) queue [] (.error cause) rest ↔
        Refuses resync queue cause rest := by
  refine ⟨⟨_, _, (Exchange.concludes_receive (.awaiting resync) queue).ends⟩,
    fun payload rest => ⟨fun h => ?_, ?_⟩, fun cause rest => ⟨fun h => ?_, Refuses.concludes⟩⟩
  · rcases accepts_or_refuses resync queue with ⟨payload', rest', hyes⟩ | ⟨cause, rest', hno⟩
    · obtain ⟨-, hpayload, rfl⟩ := hyes.concludes.unique h
      cases hpayload
      obtain ⟨p, hqueue, henough, rfl⟩ := hyes
      exact ⟨p, hqueue, henough, rfl, by rw [List.length_take, Nat.min_eq_left henough]⟩
    · obtain ⟨-, hresult, -⟩ := hno.concludes.unique h
      cases hresult
  · rintro ⟨p, hqueue, henough, hpayload, -⟩
    exact Accepts.concludes ⟨p, hqueue, henough, hpayload⟩
  · rcases accepts_or_refuses resync queue with ⟨payload, rest', hyes⟩ | ⟨cause', rest', hno⟩
    · obtain ⟨-, hresult, -⟩ := hyes.concludes.unique h
      cases hresult
    · obtain ⟨-, hcause, rfl⟩ := hno.concludes.unique h
      cases hcause
      exact hno

/-- A keepalive and an orphan ahead of the header, a continuation without data, and more data than
is needed in the last one. -/
example : receiveMessage (.awaiting true)
    [[0x82, 1], [5, 9], [0x83, 0, 3, 1], [0], [1, 2, 3, 4], [7]] = (.ok [1, 2, 3], [[7]]) := rfl

end Ctap.Ble
