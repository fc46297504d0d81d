import Ctap.Ble.Authenticator
import Ctap.Proofs.Ble.Framing
import Ctap.Proofs.Session

/-!
# The other end of a BLE connection

A peripheral puts the frames that are written to its control point together, and takes a request
when the last of its frames has come. It answers requests in order, each with one answer of any
framing and content. Its notifications come in order; between two answers there may be any number of
keepalives. A request to give up changes nothing but perhaps the content of an answer, which is free
anyhow.

## Main definitions

* `Peripheral`, `Peripheral.hear`, `Peripheral.Act`: what is at the other end, and what it does.
* `Peripheral.Expects`: the frames that are still missing for a request.
* `Backlog`: notifications that bring some answers, whole and in order.

## Main results

* `Peripheral.hear_expected`: a request is taken with the last of its frames, and not before.
* `Backlog.keepalive_last`, `Backlog.answer_last`: what notifications bring when more come.
-/

namespace Ctap.Ble

/-! ### Notifications -/

/-- The frame that tells that a request is still being processed. -/
def keepaliveFrame (status : UInt8) : Bytes :=
  Command.keepalive.toByte :: Bytes.ofUInt16 1 ++ [status]

/-- Notifications that bring the given answers, whole and in order, with keepalives between them. -/
inductive Backlog : List Answer → List Bytes → Prop where
  | nothing : Backlog [] []
  | keepalive (status : UInt8) {answers : List Answer} {queue : List Bytes} :
    Backlog answers queue → Backlog answers (keepaliveFrame status :: queue)
  | answer (a : Answer) {answers : List Answer} {queue : List Bytes} :
    Backlog answers queue → Backlog (a :: answers) (a.frames ++ queue)

namespace Backlog

variable {answers : List Answer} {queue : List Bytes}

theorem keepalive_last (h : Backlog answers queue) (status : UInt8) :
    Backlog answers (queue ++ [keepaliveFrame status]) := by
  induction h with
  | nothing => exact .keepalive status .nothing
  | keepalive status' _ ih => exact .keepalive status' ih
  | answer a _ ih =>
    rw [List.append_assoc]
    exact .answer a ih

theorem answer_last (h : Backlog answers queue) (a : Answer) :
    Backlog (answers ++ [a]) (queue ++ a.frames) := by
  induction h with
  | nothing =>
    have hone := Backlog.answer a .nothing
    rwa [List.append_nil] at hone
  | keepalive status _ ih => exact .keepalive status ih
  | answer a' _ ih =>
    rw [List.append_assoc]
    exact .answer a' ih

theorem ne_nil {a : Answer} (h : Backlog (a :: answers) queue) : queue ≠ [] := by
  cases h with
  | keepalive => exact List.cons_ne_nil _ _
  | answer =>
    obtain ⟨header, rest, hframes, -⟩ := a.frames_eq_cons
    simp [hframes]

/-- What comes first is a keepalive, or the frame that begins the first answer. -/
theorem of_cons {frame : Bytes} (h : Backlog answers (frame :: queue)) :
    ((∃ status, frame = keepaliveFrame status) ∧ Backlog answers queue) ∨
      ∃ a rest behind more, answers = a :: rest ∧ a.frames = frame :: behind ∧
        queue = behind ++ more ∧ Backlog rest more := by
  generalize hframes : frame :: queue = frames at h
  cases h with
  | nothing => cases hframes
  | keepalive status h =>
    cases hframes
    exact .inl ⟨⟨status, rfl⟩, h⟩
  | answer a h =>
    obtain ⟨header, behind, ha, -⟩ := a.frames_eq_cons
    rw [ha, List.cons_append] at hframes
    cases hframes
    exact .inr ⟨a, _, behind, _, rfl, ha, rfl, h⟩

end Backlog

theorem getElem?_of_drop {answers later : List Answer} {n : Nat} {a : Answer}
    (h : answers.drop n = a :: later) :
    n + 1 ≤ answers.length ∧ answers[n]? = some a ∧ answers.drop (n + 1) = later := by
  have hfirst : answers[n]? = some a := by
    rw [← Nat.add_zero n, ← List.getElem?_drop, h, List.getElem?_cons_zero]
  refine ⟨(List.getElem?_eq_some_iff.1 hfirst).1, hfirst, ?_⟩
  rw [← List.drop_drop, h, List.drop_one, List.tail_cons]

/-! ### The peripheral -/

/-- What is at the other end of a BLE connection. -/
structure Peripheral where
  command : UInt8
  reader : Reader
  /-- The requests that came in full, with command and payload. -/
  requests : List (UInt8 × Bytes)
  answers : List Answer
  queue : List Bytes
  /-- How many answers the reader of the notifications has begun to take. -/
  read : Nat

namespace Peripheral

/-- What a peripheral does on its own. -/
inductive Act where
  /-- It tells that a request is still being processed. -/
  | keepalive (status : UInt8)
  /-- It answers the first request that it has not answered. -/
  | answer (a : Answer)

/-- A peripheral to which nothing was written. -/
def fresh : Peripheral := ⟨0, .awaiting false, [], [], [], 0⟩

/-- The command and the reader with which a frame is taken: a frame that goes on with a message
belongs to the request that is coming, and any other one begins a request. -/
def intake (p : Peripheral) (frame : Bytes) : UInt8 × Reader :=
  if continuesMessage frame then (p.command, p.reader) else (frame.headD 0, .awaiting false)

/-- Whether a frame asks for a request to be given up. -/
def isCancel (frame : Bytes) : Bool := frame.head? == some Command.cancel.toByte

/-- The state after a frame was written to the control point. -/
def hear (p : Peripheral) (frame : Bytes) : Peripheral :=
  if isCancel frame then p
  else
    match (p.intake frame).2.push frame with
    | .error _ => p
    | .ok (next, none) => { p with command := (p.intake frame).1, reader := next }
    | .ok (_, some payload) =>
      { p with
        reader := .awaiting false
        requests := p.requests ++ [((p.intake frame).1, payload)] }

/-- The next notification, and the state after it was taken. -/
def next? (p : Peripheral) : Option (Bytes × Peripheral) :=
  match p.queue with
  | [] => none
  | frame :: queue =>
    some (frame, { p with queue, read := if opensAnswer frame then p.read + 1 else p.read })

/-- The state after an act, if there is a request for it. -/
def act? (p : Peripheral) : Act → Option Peripheral
  | .keepalive status => some { p with queue := p.queue ++ [keepaliveFrame status] }
  | .answer a =>
    if p.answers.length < p.requests.length then
      some { p with answers := p.answers ++ [a], queue := p.queue ++ a.frames }
    else none

instance : Peer Peripheral Unit Act where
  hear? p _ frame := some (p.hear frame)
  next? := next?
  act? := act?
  taken p := p.requests.length

/-- Whether the frame and those behind it are what is missing of a request. -/
structure Expects (p : Peripheral) (request : UInt8 × Bytes) (frame : Bytes)
    (rest : List Bytes) : Prop where
  /-- The frame does not ask for anything to be given up. -/
  noCancel : isCancel frame = false
  /-- The command of the request is known, or the frame names it. -/
  command : (p.intake frame).1 = request.1
  payload : (p.intake frame).2.feed (frame :: rest) = .ended (.ok request.2) []
  /-- The frames behind the first go on with the request. -/
  continues : ∀ f ∈ rest, continuesMessage f = true

/-! ### What a peripheral takes -/

variable {p : Peripheral}

@[simp] theorem hear_queue (p : Peripheral) (frame : Bytes) : (p.hear frame).queue = p.queue := by
  rw [hear]
  split_ifs
  · rfl
  · split <;> rfl

@[simp] theorem hear_answers (p : Peripheral) (frame : Bytes) :
    (p.hear frame).answers = p.answers := by
  rw [hear]
  split_ifs
  · rfl
  · split <;> rfl

@[simp] theorem hear_read (p : Peripheral) (frame : Bytes) : (p.hear frame).read = p.read := by
  rw [hear]
  split_ifs
  · rfl
  · split <;> rfl

theorem next?_eq_some {frame : Bytes} {peer : Peripheral} : p.next? = some (frame, peer) ↔
    ∃ queue, p.queue = frame :: queue ∧
      peer = { p with queue, read := if opensAnswer frame then p.read + 1 else p.read } := by
  rcases h : p.queue with _ | ⟨first, queue⟩
  · simp [next?, h]
  · simp only [next?, h, Option.some.injEq, Prod.mk.injEq, List.cons.injEq]
    constructor
    · rintro ⟨rfl, rfl⟩
      exact ⟨queue, ⟨rfl, rfl⟩, rfl⟩
    · rintro ⟨_, ⟨rfl, rfl⟩, rfl⟩
      exact ⟨rfl, rfl⟩

theorem hear_cancel {frame : Bytes} (h : isCancel frame = true) : p.hear frame = p := by
  rw [hear, if_pos h]

private theorem isCancel_of_continuesMessage {frame : Bytes} (h : continuesMessage frame = true) :
    isCancel frame = false := by
  rcases frame with _ | ⟨first, rest⟩
  · rfl
  · simp only [continuesMessage, beq_iff_eq] at h
    simp only [isCancel, List.head?_cons, beq_eq_false_iff_ne, ne_eq, Option.some.injEq]
    rintro rfl
    exact absurd h (by decide)

/-- **A request is taken with the last of its frames**, and before that nothing is taken. -/
theorem hear_expected {request : UInt8 × Bytes} {frame : Bytes} {rest : List Bytes}
    (h : p.Expects request frame rest) :
    (rest = [] ∧ (p.hear frame).requests = p.requests ++ [request]) ∨
      ∃ next more, rest = next :: more ∧ (p.hear frame).requests = p.requests ∧
        (p.hear frame).Expects request next more := by
  obtain ⟨_, _, hcons, hend⟩ := Reader.feed_eq_ended h.payload
  cases hcons
  rcases hend with ⟨_, _, hresult, _⟩ | ⟨next, payload, hpush, hresult, hrest⟩ | ⟨next, hpush, hmore⟩
  · cases hresult
  · cases hresult
    left
    refine ⟨hrest, ?_⟩
    simp only [hear, h.noCancel, hpush, h.command, Bool.false_eq_true, if_false]
  · right
    obtain ⟨frame', more, hrest, -⟩ := Reader.feed_eq_ended hmore
    have hhear : p.hear frame = { p with command := request.1, reader := next } := by
      simp only [hear, h.noCancel, hpush, h.command, Bool.false_eq_true, if_false]
    have hcontinues : continuesMessage frame' = true := h.continues frame' (by simp [hrest])
    refine ⟨frame', more, hrest, by rw [hhear], ?_⟩
    rw [hhear]
    exact {
      noCancel := isCancel_of_continuesMessage hcontinues
      command := by simp [intake, hcontinues]
      payload := by simpa [intake, hcontinues, hrest] using hmore
      continues := fun f hf => h.continues f (by simp [hrest, hf]) }

private theorem toByte_ne_cancel {command : Command} (h : command.isRequest = true) :
    command.toByte ≠ Command.cancel.toByte := by
  cases command <;> revert h <;> decide

/-- The frames that are cut for a request are what is missing of it before it has begun. -/
theorem expects_packetize {command : Command} (hcommand : command.isRequest = true)
    {payload : Bytes} {size : Nat} {frames : List Bytes}
    (h : packetize command payload size = .ok frames) (p : Peripheral) :
    ∃ frame rest, frames = frame :: rest ∧ p.Expects (command.toByte, payload) frame rest := by
  obtain ⟨⟨hmin, -⟩, hfits, rfl⟩ := packetize_eq_ok.1 h
  have hlarge : 1 < size := Nat.lt_of_lt_of_le (by decide) hmin
  have hpayload := Command.hasPayload_of_isRequest hcommand
  obtain ⟨hframes, hwhole⟩ := Message.frames_ofPayload hpayload hfits hlarge
  set m := Message.ofPayload hpayload hfits hlarge with hm
  have hbegins : continuesMessage m.header = false := by
    simp [continuesMessage, Message.header, m.isCommand]
  have hintake : p.intake m.header = (command.toByte, .awaiting false) := by
    rw [intake, hbegins]
    rfl
  refine ⟨m.header, continuations 0 m.pieces, hframes, ?_, ?_, ?_, ?_⟩
  · simp only [isCancel, Message.header, List.head?_cons, List.cons_append, beq_eq_false_iff_ne,
      ne_eq, Option.some.injEq]
    exact toByte_ne_cancel hcommand
  · rw [hintake]
  · rw [hintake]
    have hfeed := Reader.feed_message m false
    rwa [hwhole] at hfeed
  · exact fun f hf => continuesMessage_of_mem rfl hf

end Peripheral

end Ctap.Ble
