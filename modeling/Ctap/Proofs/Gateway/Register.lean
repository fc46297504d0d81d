import Ctap.Proofs.Gateway.Events

/-!
# The channel table in use

Four things are done to a channel table: a channel is handed out, a request comes on a channel, the
request in flight on a channel is given up, and a request takes itself off its channel. They come in
any order, and a request may take itself off long after its channel was freed. A table is put to use
by such bookings, one after the other; what it hands out and whom it signals is observed.

## Main definitions

* `Booking`, `ChannelTable.book?`: what is done to a table, and the table afterwards.
* `ChannelTable.issues`, `ChannelTable.signals`: what is observed of a booking.

## Main results

* `ChannelTable.allocate_cases`, `ChannelTable.allocate_skip`: which draw is handed out.
-/

namespace Ctap.Gateway

open Hid (ChannelId)

/-- What is done to a channel table. -/
inductive Booking where
  /-- A channel is handed out: the first random draw that can be issued. -/
  | allocate (draws : List ChannelId)
  | start (channel : ChannelId)
  /-- The request in flight on a channel is given up, if there is one. -/
  | abort (channel : ChannelId) (reason : Abort)
  | finish (channel : ChannelId) (id : DispatchId)
deriving DecidableEq, Repr

namespace ChannelTable

/-- The table after a booking. There is none only while no random draw can be issued. -/
def book? (t : ChannelTable) : Booking → Option ChannelTable
  | .allocate draws => (t.allocate draws).map (·.2)
  | .start channel => some ((t.start channel).elim t (·.2))
  | .abort channel reason => some (t.abort channel reason).2
  | .finish channel id => some (t.finish channel id)

instance : Machine ChannelTable Booking where
  next? := book?

/-- The channel that a booking hands out. -/
def issues (t : ChannelTable) : Booking → List ChannelId
  | .allocate draws => ((t.allocate draws).map (·.1)).toList
  | _ => []

/-- The request that a booking signals, and the reason. -/
def signals (t : ChannelTable) : Booking → List (DispatchId × Abort)
  | .abort channel reason => ((t.abort channel reason).1.map (·, reason)).toList
  | _ => []

/-! ### Random draws -/

variable {t u : ChannelTable} {c : ChannelId} {draws skipped : List ChannelId}

/-- Whether a draw is not handed out: it is reserved, or remembered. -/
def Refuses (t : ChannelTable) (c : ChannelId) : Prop :=
  c = 0 ∨ c = Hid.broadcast ∨ t.issue c = none

theorem isOrdinary_eq_true : isOrdinary c = true ↔ c ≠ 0 ∧ c ≠ Hid.broadcast := by
  simp [isOrdinary]

/-- A draw that is not handed out might as well not have been drawn. -/
theorem allocate_cons_of_refuses (h : t.Refuses c) :
    t.allocate (c :: draws) = t.allocate draws := by
  rw [allocate]
  split_ifs with hordinary
  · obtain ⟨hzero, hbroadcast⟩ := isOrdinary_eq_true.1 hordinary
    rw [(h.resolve_left hzero).resolve_left hbroadcast]
  · rfl

theorem allocate_skip (h : ∀ c ∈ skipped, t.Refuses c) :
    t.allocate (skipped ++ draws) = t.allocate draws := by
  induction skipped with
  | nil => rfl
  | cons c skipped ih =>
    obtain ⟨hfirst, hrest⟩ := List.forall_mem_cons.1 h
    rw [List.cons_append, allocate_cons_of_refuses hfirst, ih hrest]

/-- A channel is handed out if there is a draw that can be. -/
theorem isSome_allocate (h : ∃ c ∈ draws, ¬ t.Refuses c) : (t.allocate draws).isSome := by
  induction draws with
  | nil =>
    obtain ⟨c, hc, -⟩ := h
    cases hc
  | cons draw draws ih =>
    by_cases hrefuses : t.Refuses draw
    · rw [allocate_cons_of_refuses hrefuses]
      refine ih ?_
      obtain ⟨c, hc, hfree⟩ := h
      rcases List.mem_cons.1 hc with rfl | hc
      · exact absurd hrefuses hfree
      · exact ⟨c, hc, hfree⟩
    · rw [Refuses, not_or, not_or] at hrefuses
      obtain ⟨hzero, hbroadcast, hissue⟩ := hrefuses
      obtain ⟨next, hnext⟩ := Option.ne_none_iff_exists'.1 hissue
      rw [allocate, if_pos (isOrdinary_eq_true.2 ⟨hzero, hbroadcast⟩), hnext]
      rfl

/-- What is handed out can be handed out, and is recorded. -/
theorem allocate_cases (h : t.allocate draws = some (c, u)) :
    (c ≠ 0 ∧ c ≠ Hid.broadcast) ∧ t.issue c = some u := by
  induction draws with
  | nil => cases h
  | cons draw draws ih =>
    rw [allocate] at h
    split at h
    · rename_i hordinary
      split at h
      · rename_i hissue
        cases h
        exact ⟨isOrdinary_eq_true.1 hordinary, hissue⟩
      · exact ih h
    · exact ih h

/-- What is handed out is recorded; nothing else touches the memory of what was handed out. -/
theorem book?_memory {b : Booking} (h : t.book? b = some u) :
    (∃ c, t.issues b = [c] ∧ (c ≠ 0 ∧ c ≠ Hid.broadcast) ∧ t.issue c = some u) ∨
      t.issues b = [] ∧ u.issued = t.issued ∧ u.order = t.order := by
  cases b with
  | allocate draws =>
    obtain ⟨⟨c, next⟩, hallocate, rfl⟩ := Option.map_eq_some_iff.1 h
    exact .inl ⟨c, by rw [issues, hallocate]; rfl, allocate_cases hallocate⟩
  | start channel =>
    obtain rfl := Option.some.inj h
    rcases hstart : t.start channel with _ | r
    · exact .inr ⟨rfl, rfl, rfl⟩
    · obtain ⟨-, rfl⟩ := start_eq_some.1 hstart
      exact .inr ⟨rfl, rfl, rfl⟩
  | abort channel reason =>
    obtain rfl := Option.some.inj h
    rw [abort]
    rcases t.dispatchOn? channel with _ | id
    · exact .inr ⟨rfl, rfl, rfl⟩
    · cases reason <;> exact .inr ⟨rfl, rfl, rfl⟩
  | finish channel id =>
    obtain rfl := Option.some.inj h
    rw [finish]
    split <;> exact .inr ⟨rfl, rfl, rfl⟩

end ChannelTable

end Ctap.Gateway
