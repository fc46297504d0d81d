import Ctap.Proofs.Gateway.Books

/-!
# Polls of the devices for a request

A request is handed to the first device that is listed. If there is none, or the device fails, the
gateway rests and polls the devices again. What the devices do is a script: how long each poll
takes, and what comes of it. From the script it follows at which instants the polls, the attempts
and their ends are, as long as no attempt succeeds.

A gateway whose devices follow the script does so under a rule: reports to the host do not wait,
whatever is due takes place when it is due, and a device that finishes just when the time for the
request is up still counts.

## Main definitions

* `Poll`, `Script`, `Plan`: what the devices do about a request, and what follows from it.
* `Plan.begins`, `Plan.hands`, `Plan.ends`: when each poll begins, hands the request on, and ends.
* `Plan.done`: what is done about the devices until then.
* `Polled`, `Polled.step?`: a gateway whose devices follow a script, and what happens to it.
* `Polled.prompt`: the rule that nothing waits.
* `Deed`, `Polled.deeds`: what is done about the devices for a request.

## Main results

* `Plan.ends_le_begins`: polls do not overlap.
* `Plan.Reaches.due_le_ends`: nothing is due after the end of the first attempt to succeed.
* `Polled.aside`: what concerns others does nothing about a request.
-/

namespace Ctap.Gateway

variable {δ : Type}

/-! ### What the devices do -/

/-- What comes of a poll of the devices. -/
structure Poll (δ : Type) where
  /-- How long it takes to list the devices. -/
  listing : Time
  /-- The devices, or the reason why they are not listed. -/
  listed : Except Error (DeviceList δ)
  /-- How long the first device works on the request. -/
  exchange : Time
  result : Except Error Bytes

namespace Poll

/-- The device to which the request is handed. -/
def device? (p : Poll δ) : Option δ :=
  match p.listed with
  | .ok devices => devices.first?
  | .error _ => none

/-- The response, if there is a device and it succeeds. -/
def answer? (p : Poll δ) : Option Bytes :=
  match p.device?, p.result with
  | some _, .ok body => some body
  | _, _ => none

/-- How long it takes until the device is done, if there is one. -/
def duration (p : Poll δ) : Time :=
  match p.device? with
  | some _ => p.listing + p.exchange
  | none => p.listing

end Poll

/-- What the devices do about a request. -/
structure Script (δ : Type) where
  /-- What comes of each poll. -/
  polls : Nat → Poll δ
  /-- How long it takes to ask a device to give the request up. -/
  asking : Time

/-- What is done about the devices for a request. -/
inductive Deed (δ : Type) where
  | polled
  | tried (device : δ) (request : Bytes)
  | failed
  | stopped (outcome : Outcome)
  /-- The device was asked to give the request up. -/
  | cancelled (device : δ)
deriving DecidableEq

/-- What the course of a request depends on, as long as the host lets it be. -/
structure Plan (δ : Type) extends Script δ where
  config : Config
  /-- When the request is accepted. -/
  start : Time

namespace Plan

variable (p : Plan δ)

/-- When a poll begins: the first one at once, and each other one a rest after the one before. -/
def begins : Nat → Time
  | 0 => p.start
  | k + 1 => begins k + (p.polls k).duration + p.config.pollDelay

/-- When a poll has listed the devices, and hands the request to the first of them. -/
def hands (k : Nat) : Time := p.begins k + (p.polls k).listing

/-- When a poll ends. -/
def ends (k : Nat) : Time := p.begins k + (p.polls k).duration

/-- When the time for the request is up. -/
def deadline : Time := p.start + p.config.requestTimeout

/-- Whether no attempt succeeds before a poll. -/
def Failing (n : Nat) : Prop := ∀ k < n, (p.polls k).answer? = none

/-- Whether an attempt is the first to succeed. -/
def FirstSuccess (k : Nat) (body : Bytes) : Prop := p.Failing k ∧ (p.polls k).answer? = some body

/-- What is done in a poll that fails. -/
def attempt (request : Bytes) (k : Nat) : List (Time × Deed δ) :=
  match (p.polls k).device? with
  | some device => [(p.hands k, .tried device request), (p.ends k, .failed)]
  | none => []

/-- What is done before a poll, if all polls before it fail. -/
def log (request : Bytes) : Nat → List (Time × Deed δ)
  | 0 => []
  | n + 1 => log request n ++ p.attempt request n ++ [(p.begins (n + 1), .polled)]

/-- Since when a relay waits for what comes next, in the course of a poll. -/
def since (n : Nat) : Relay δ → Time
  | .polling => p.begins n
  | .exchanging _ => p.hands n
  | .resting _ => p.ends n

/-- When what comes next is due. -/
def due (n : Nat) : Relay δ → Time
  | .polling => p.hands n
  | .exchanging _ => p.ends n
  | .resting _ => p.begins (n + 1)

/-- What has been done until then. -/
def done (request : Bytes) (n : Nat) : Relay δ → List (Time × Deed δ)
  | .polling => p.log request n
  | .exchanging device => p.log request n ++ [(p.hands n, .tried device request)]
  | .resting _ => p.log request n ++ p.attempt request n

/-- Whether a relay stands like this in the course of a poll. -/
inductive Reaches (n : Nat) : Relay δ → Prop where
  | polling (failing : p.Failing n) : Reaches n .polling
  | exchanging {device : δ} (failing : p.Failing n) (first : (p.polls n).device? = some device) :
    Reaches n (.exchanging device)
  | resting (failing : p.Failing (n + 1)) : Reaches n (.resting (p.begins (n + 1)))

/-- Whether the polls do not go on for ever before the time is up: an attempt succeeds, or time
passes. -/
def Proceeds : Prop := ∃ n, p.deadline < p.begins n ∨ (p.polls n).answer?.isSome = true

variable {p} {k n : Nat} {body request : Bytes} {relay : Relay δ} {device : δ}

theorem ends_of_device (h : (p.polls k).device? = some device) :
    p.ends k = p.hands k + (p.polls k).exchange := by
  rw [ends, hands, Poll.duration, h, Nat.add_assoc]

theorem ends_of_none (h : (p.polls k).device? = none) : p.ends k = p.hands k := by
  rw [ends, hands, Poll.duration, h]

theorem hands_le_ends (p : Plan δ) (k : Nat) : p.hands k ≤ p.ends k := by
  cases h : (p.polls k).device? with
  | none => exact Nat.le_of_eq (ends_of_none h).symm
  | some device => exact ends_of_device h ▸ Nat.le_add_right ..

theorem begins_succ (p : Plan δ) (k : Nat) : p.begins (k + 1) = p.ends k + p.config.pollDelay := rfl

/-- Polls do not overlap. -/
theorem ends_le_begins (h : k < n) : p.ends k ≤ p.begins n := by
  induction n with
  | zero => cases h
  | succ n ih =>
    rw [begins_succ]
    rcases Nat.lt_succ_iff_lt_or_eq.1 h with hless | rfl
    · calc p.ends k ≤ p.begins n := ih hless
        _ ≤ p.ends n := Nat.le_add_right ..
        _ ≤ p.ends n + p.config.pollDelay := Nat.le_add_right ..
    · exact Nat.le_add_right ..

theorem begins_le_begins (h : k ≤ n) : p.begins k ≤ p.begins n := by
  rcases Nat.eq_or_lt_of_le h with rfl | hless
  · exact Nat.le_refl _
  · exact Nat.le_trans (Nat.le_add_right ..) (ends_le_begins hless)

theorem ends_le_ends (h : k ≤ n) : p.ends k ≤ p.ends n := by
  rcases Nat.eq_or_lt_of_le h with rfl | hless
  · exact Nat.le_refl _
  · exact Nat.le_trans (ends_le_begins hless) (Nat.le_add_right ..)

theorem Failing.succ (h : p.Failing n) (hnone : (p.polls n).answer? = none) :
    p.Failing (n + 1) := by
  intro k hk
  rcases Nat.lt_succ_iff_lt_or_eq.1 hk with hless | rfl
  · exact h k hless
  · exact hnone

theorem Failing.le (h : p.Failing n) (hsome : (p.polls k).answer?.isSome = true) : n ≤ k := by
  by_contra hless
  rw [h k (Nat.lt_of_not_le hless)] at hsome
  cases hsome

theorem since_le_due (p : Plan δ) (n : Nat) (relay : Relay δ) :
    p.since n relay ≤ p.due n relay := by
  cases relay with
  | polling => exact Nat.le_add_right ..
  | exchanging device => exact p.hands_le_ends n
  | resting wake => exact Nat.le_add_right ..

/-- Whatever is due comes before the end of the first attempt to succeed. -/
theorem Reaches.due_le_ends (h : p.Reaches n relay) (hfirst : p.FirstSuccess k body) :
    p.due n relay ≤ p.ends k := by
  have hsome : (p.polls k).answer?.isSome = true := by rw [hfirst.2]; rfl
  cases h with
  | polling failing =>
    exact Nat.le_trans (p.hands_le_ends n) (ends_le_ends (failing.le hsome))
  | exchanging failing => exact ends_le_ends (failing.le hsome)
  | resting failing =>
    exact Nat.le_trans (begins_le_begins (failing.le hsome)) (Nat.le_add_right ..)

end Plan

/-! ### A gateway whose devices follow a script -/

/-- What an event does about the devices for a request that it concerns. -/
def Dispatch.deeds (d : Dispatch δ) : Event δ → List (Deed δ)
  | .enumerated _ (.ok devices) => (devices.first?.map (.tried · d.request)).toList
  | .answered _ (.ok body) => [.stopped (.response body)]
  | .answered _ (.error _) => [.failed]
  | .rested _ => [.polled]
  | .expired _ => [.stopped .timedOut]
  | .aborted _ => (d.signal.map fun reason => .stopped (.aborted reason)).toList
  | .deviceCancelled _ =>
    match d.stage with
    | .cancelling device _ => [.cancelled device]
    | _ => []
  | _ => []

/-- A gateway, and how far it has got with the request with a number, whose devices follow a
script. -/
structure Polled {δ : Type} (script : Script δ) (id : DispatchId) where
  gateway : System δ
  /-- The instant of the last event. -/
  clock : Time
  /-- Since when the request waits for what comes next. -/
  since : Time
  round : Nat

namespace Polled

/-- What can happen to a gateway and its devices. -/
inductive Event (δ : Type) where
  | listed
  /-- The device has finished its work on the request. -/
  | finished
  /-- The device was asked to give the request up. -/
  | asked
  | other (event : Gateway.Event δ)

variable {script : Script δ} {id : DispatchId}

/-- What happens to the gateway. -/
def event (s : Polled script id) : Event δ → Gateway.Event δ
  | .listed => .enumerated id (script.polls s.round).listed
  | .finished => .answered id (script.polls s.round).result
  | .asked => .deviceCancelled id
  | .other event => event

/-- Since when the request waits after an event, and the number of the poll. -/
def progress (s : Polled script id) (now : Time) : Event δ → Time × Nat
  | .listed | .finished | .asked => (now, s.round)
  | .other (.rested x) => if x = id then (now, s.round + 1) else (s.since, s.round)
  | .other (.expired x) | .other (.aborted x) =>
    if x = id then (now, s.round) else (s.since, s.round)
  | .other _ => (s.since, s.round)

/-- The state after an event that leaves the gateway like this. -/
def after (s : Polled script id) (now : Time) (e : Event δ) (gateway : System δ) :
    Polled script id where
  gateway
  clock := now
  since := (s.progress now e).1
  round := (s.progress now e).2

/-- The state after an event at an instant. -/
def step? (s : Polled script id) (now : Time) (e : Event δ) : Option (Polled script id) :=
  (s.gateway.step? now (s.event e)).map (s.after now e)

instance : Machine (Polled script id) (Time × Event δ) where
  next? s e := s.step? e.1 e.2

/-- When what comes next for the request is due. Reports to the host do not wait. -/
def due (s : Polled script id) : Stage δ → Time
  | .relaying .polling => s.since + (script.polls s.round).listing
  | .relaying (.exchanging _) => s.since + (script.polls s.round).exchange
  | .relaying (.resting wake) => wake
  | .cancelling .. => s.since + script.asking
  | .notifying .. | .answering .. | .ended => s.clock

/-- Whether an event goes with the script: the devices take the time that the script says, and the
time for the request is not up as long as something else is due. -/
def follows (s : Polled script id) (d : Dispatch δ) (now : Time) : Event δ → Bool
  | .listed | .finished | .asked => now == s.due d.stage
  | .other (.enumerated x _) | .other (.answered x _) | .other (.deviceCancelled x) => x != id
  | .other (.expired x) => x != id || now != s.due d.stage
  | .other _ => true

/-- The rule that time does not go back, and that nothing about the request waits longer than it
must, neither what is due nor the end of its time. -/
def prompt (s : Polled script id) (e : Time × Event δ) : Bool :=
  decide (s.clock ≤ e.1) && (s.gateway.dispatch? id).all fun d =>
    decide (e.1 ≤ s.due d.stage) && (d.stage.relay?.isNone || decide (e.1 ≤ d.deadline)) &&
      s.follows d e.1 e.2

/-- What is done about the devices for the request. -/
def deeds (s : Polled script id) (e : Time × Event δ) : List (Time × Deed δ) :=
  if (s.event e.2).subject? = some id then
    ((s.gateway.dispatch? id).toList.flatMap (·.deeds (s.event e.2))).map (e.1, ·)
  else []

/-- What is recorded of an event. -/
def record (s : Polled script id) (e : Time × Event δ) : List (Time × Happening) :=
  s.gateway.record (e.1, s.event e.2)

/-- A gateway that has just accepted the request. -/
def start (gateway : System δ) (now : Time) : Polled script id := ⟨gateway, now, now, 0⟩

variable {s : Polled script id} {now : Time} {e : Event δ} {d : Dispatch δ}

theorem prompt_iff (hd : s.gateway.dispatch? id = some d) : prompt s (now, e) = true ↔
    s.clock ≤ now ∧ now ≤ s.due d.stage ∧ (d.stage.relay?.isSome = true → now ≤ d.deadline) ∧
      s.follows d now e = true := by
  rw [prompt, hd]
  cases hrelay : d.stage.relay? <;> simp [hrelay, and_assoc]

@[simp] theorem progress_rested : s.progress now (.other (.rested id)) = (now, s.round + 1) :=
  if_pos rfl

@[simp] theorem progress_expired : s.progress now (.other (.expired id)) = (now, s.round) :=
  if_pos rfl

@[simp] theorem progress_aborted : s.progress now (.other (.aborted id)) = (now, s.round) :=
  if_pos rfl

theorem clock_le_of_prompt (h : prompt s (now, e) = true) : s.clock ≤ now := by
  rw [prompt, Bool.and_eq_true] at h
  exact of_decide_eq_true h.1

theorem deeds_own (hd : s.gateway.dispatch? id = some d) (he : (s.event e).subject? = some id) :
    s.deeds (now, e) = (d.deeds (s.event e)).map (now, ·) := by
  simp [deeds, he, hd]

theorem time_of_mem_record : ∀ z ∈ s.record (now, e), z.1 = now := by
  intro z hz
  obtain ⟨y, -, rfl⟩ := List.mem_map.1 hz
  rfl

/-- An event that does not concern the request does nothing about it. -/
theorem aside (now : Time) (h : (s.event e).subject? ≠ some id) :
    s.progress now e = (s.since, s.round) ∧ s.deeds (now, e) = [] ∧
      ∀ z ∈ s.record (now, e), z.2.subject? ≠ some id := by
  refine ⟨?_, if_neg h, fun z hz => ?_⟩
  · cases e with
    | listed | finished | asked => exact absurd rfl h
    | other event =>
      cases event with
      | rested x | expired x | aborted x => exact if_neg fun hx => h (congrArg some hx)
      | _ => rfl
  · obtain ⟨y, hy, rfl⟩ := List.mem_map.1 hz
    rwa [System.subject?_of_happening hy]

end Polled

end Ctap.Gateway
