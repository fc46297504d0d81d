import Std.Data.HashSet
import Ctap.Hid.Command

/-!
# The channel table

The gateway remembers which channels it issued lately, so that it does not issue one twice, and on
which channels a request is in flight. Requests are numbered in the order in which they were
accepted.

## Main definitions

* `ChannelTable.issue`, `ChannelTable.allocate`: new channels.
* `ChannelTable.start`, `ChannelTable.abort`, `ChannelTable.finish`: requests in flight.
-/

namespace Ctap.Gateway

open Hid (ChannelId)

/-- The number of an accepted request. A gateway counts in 64 bits and would have to accept `2 ^ 64`
requests before a number comes again; here numbers have no bound. -/
abbrev DispatchId : Type := Nat

/-- How many channels are remembered. -/
def issuedHistory : Nat := 4096

/-- Why a request in flight is given up before the authenticator answers. -/
inductive Abort where
  | cancel
  | resync
deriving DecidableEq, Repr, Inhabited

/-- Channels issued lately and requests in flight. -/
structure ChannelTable where
  issued : Std.HashSet ChannelId
  /-- The channels that are remembered, latest first. -/
  order : List ChannelId
  inFlight : List (ChannelId × DispatchId)
  nextDispatch : DispatchId

namespace ChannelTable

/-- The table of a gateway that has served nobody. -/
def empty : ChannelTable := ⟨∅, [], [], 0⟩

instance : Inhabited ChannelTable := ⟨empty⟩

/-- Forgets the channel that was issued first. -/
def forgetOldest (t : ChannelTable) : ChannelTable :=
  match t.order.getLast? with
  | none => t
  | some oldest => { t with issued := t.issued.erase oldest, order := t.order.dropLast }

/-- Records a channel as issued. A channel that is remembered is refused. -/
def issue (t : ChannelTable) (channel : ChannelId) : Option ChannelTable :=
  if t.issued.contains channel then none
  else
    let recorded :=
      { t with issued := t.issued.insert channel, order := channel :: t.order }
    some (if issuedHistory < recorded.order.length then recorded.forgetOldest else recorded)

/-- Whether a channel may be handed out at all. -/
def isOrdinary (channel : ChannelId) : Bool := channel != 0 && channel != Hid.broadcast

/-- Issues the first random draw that can be issued. Nothing is issued if none of them can. -/
def allocate (t : ChannelTable) : List ChannelId → Option (ChannelId × ChannelTable)
  | [] => none
  | draw :: draws =>
    if isOrdinary draw then
      match t.issue draw with
      | some issued => some (draw, issued)
      | none => t.allocate draws
    else t.allocate draws

/-- The request in flight on a channel. -/
def dispatchOn? (t : ChannelTable) (channel : ChannelId) : Option DispatchId :=
  t.inFlight.lookup channel

/-- Enters a new request on a channel; a channel that has one is refused. -/
def start (t : ChannelTable) (channel : ChannelId) : Option (DispatchId × ChannelTable) :=
  match t.dispatchOn? channel with
  | some _ => none
  | none =>
    some (t.nextDispatch,
      { t with
        inFlight := (channel, t.nextDispatch) :: t.inFlight
        nextDispatch := t.nextDispatch + 1 })

/-- Frees a channel. -/
def release (t : ChannelTable) (channel : ChannelId) : ChannelTable :=
  { t with inFlight := t.inFlight.filter (·.1 != channel) }

/-- The request to be signalled when the one in flight on a channel is given up, if there is one.
INIT frees the channel at once; a request that is cancelled keeps it. -/
def abort (t : ChannelTable) (channel : ChannelId) (reason : Abort) :
    Option DispatchId × ChannelTable :=
  match t.dispatchOn? channel with
  | none => (none, t)
  | some id =>
    match reason with
    | .cancel => (some id, t)
    | .resync => (some id, t.release channel)

/-- Frees a channel if it still belongs to the given request. -/
def finish (t : ChannelTable) (channel : ChannelId) (id : DispatchId) : ChannelTable :=
  if t.dispatchOn? channel = some id then t.release channel else t

/-! ### Laws -/

variable {t u : ChannelTable} {channel c : ChannelId}

/-- A channel that is freed has no request in flight, and the others keep theirs. -/
theorem dispatchOn?_release (t : ChannelTable) (channel c : ChannelId) :
    (t.release channel).dispatchOn? c = if c = channel then none else t.dispatchOn? c := by
  simp only [dispatchOn?, release]
  induction t.inFlight with
  | nil => simp
  | cons entry rest ih =>
    obtain ⟨d, id⟩ := entry
    have hdc : (c == d) = decide (c = d) := rfl
    by_cases hd : d = channel
    · subst hd
      rw [List.filter_cons_of_neg (by simp), ih, List.lookup_cons, hdc]
      by_cases hc : c = d <;> simp [hc]
    · rw [List.filter_cons_of_pos (by simpa using hd), List.lookup_cons, List.lookup_cons, ih, hdc]
      by_cases hc : c = d
      · simp [hc, hd]
      · simp [hc]

/-- A channel without a request gets the next number, and the others keep their requests. -/
theorem start_eq_some {r : DispatchId × ChannelTable} : t.start channel = some r ↔
    t.dispatchOn? channel = none ∧ r = (t.nextDispatch,
      { t with
        inFlight := (channel, t.nextDispatch) :: t.inFlight
        nextDispatch := t.nextDispatch + 1 }) := by
  rw [start]
  cases t.dispatchOn? channel <;> simp [eq_comm]

theorem dispatchOn?_start {r : DispatchId × ChannelTable} (h : t.start channel = some r)
    (c : ChannelId) :
    r.2.dispatchOn? c = if c = channel then some t.nextDispatch else t.dispatchOn? c := by
  obtain ⟨-, rfl⟩ := start_eq_some.1 h
  by_cases hc : c = channel
  · subst hc
    simp [dispatchOn?]
  · have : (c == channel) = false := by simpa using hc
    simp [dispatchOn?, List.lookup_cons, this, hc]

/-- Issuing a channel touches no request. -/
theorem issue_requests (h : t.issue channel = some u) :
    u.inFlight = t.inFlight ∧ u.nextDispatch = t.nextDispatch := by
  rw [issue] at h
  split at h
  · cases h
  · simp only [Option.some.injEq] at h
    subst h
    split
    · rw [forgetOldest]
      split <;> exact ⟨rfl, rfl⟩
    · exact ⟨rfl, rfl⟩

theorem allocate_requests {draws : List ChannelId} (h : t.allocate draws = some (channel, u)) :
    u.inFlight = t.inFlight ∧ u.nextDispatch = t.nextDispatch := by
  induction draws with
  | nil => cases h
  | cons draw draws ih =>
    rw [allocate] at h
    split at h
    · split at h
      · rename_i hissue
        cases h
        exact issue_requests hissue
      · exact ih h
    · exact ih h

@[simp] theorem abort_fst (t : ChannelTable) (channel : ChannelId) (reason : Abort) :
    (t.abort channel reason).1 = t.dispatchOn? channel := by
  rw [abort]
  cases t.dispatchOn? channel with
  | none => rfl
  | some id => cases reason <;> rfl

/-- Only INIT takes the request in flight off its channel. -/
theorem dispatchOn?_abort (t : ChannelTable) (channel : ChannelId) (reason : Abort)
    (c : ChannelId) : (t.abort channel reason).2.dispatchOn? c =
      if reason = .resync ∧ c = channel then none else t.dispatchOn? c := by
  rw [abort]
  rcases h : t.dispatchOn? channel with _ | id
  · by_cases hc : reason = .resync ∧ c = channel
    · rw [if_pos hc, hc.2, h]
    · rw [if_neg hc]
  · cases reason with
    | cancel => simp
    | resync => simp [dispatchOn?_release]

theorem dispatchOn?_finish (t : ChannelTable) (channel : ChannelId) (id : DispatchId)
    (c : ChannelId) : (t.finish channel id).dispatchOn? c =
      if c = channel ∧ t.dispatchOn? channel = some id then none else t.dispatchOn? c := by
  rw [finish]
  by_cases h : t.dispatchOn? channel = some id
  · simp [h, dispatchOn?_release]
  · simp [h]

@[simp] theorem nextDispatch_abort (t : ChannelTable) (channel : ChannelId) (reason : Abort) :
    (t.abort channel reason).2.nextDispatch = t.nextDispatch := by
  rw [abort]
  cases t.dispatchOn? channel with
  | none => rfl
  | some id => cases reason <;> rfl

@[simp] theorem nextDispatch_finish (t : ChannelTable) (channel : ChannelId) (id : DispatchId) :
    (t.finish channel id).nextDispatch = t.nextDispatch := by
  rw [finish]
  split <;> rfl

end ChannelTable

end Ctap.Gateway
