import Ctap.Proofs.Gateway.Register
import Mathlib.Data.List.Induction

/-!
# Entries of requests in flight

A request that is accepted on a channel has an entry in the channel table until it takes itself off
the channel or INIT does, whichever comes first. A request may take itself off long after INIT did,
when another request has the channel; its number keeps the two apart. A request that is given up is
told so as long as it has its entry, and what it was told last counts.

## Main definitions

* `ChannelTable.Began`: a request was accepted, and what was done to the table since.
* `Booking.Frees`, `Reaches`: what takes a request off its channel, and what it is told.
* `lastTold`: what a request was told last.

## Main results

* `ChannelTable.dispatchOn?_book`: the entries after a booking.
* `ChannelTable.Ledger.run`: the entries of a table in use.
* `ChannelTable.entries_are_exact`: who has an entry, and who is told what.
-/

namespace Ctap.Gateway

open Hid (ChannelId)

/-- Whether a booking takes a request off its channel: the request does so itself, or INIT does. -/
def Booking.Frees (b : Booking) (c : ChannelId) (id : DispatchId) : Prop :=
  b = .finish c id ∨ b = .abort c .resync

/-- Whether a request is told to be given up, for a reason, by one of the bookings since it was
accepted. -/
def Reaches (since : List Booking) (c : ChannelId) (id : DispatchId) (reason : Abort) : Prop :=
  ∃ before after, since = before ++ .abort c reason :: after ∧ ∀ b ∈ before, ¬ b.Frees c id

/-- What a request was told last. -/
def lastTold (told : List (DispatchId × Abort)) (id : DispatchId) : Option Abort :=
  told.reverse.lookup id

namespace ChannelTable

/-- Whether a request is accepted on a channel by one of the bookings of a fresh table, and which
bookings follow. -/
def Began (bookings : List Booking) (c : ChannelId) (id : DispatchId) (since : List Booking) :
    Prop :=
  ∃ before t u, bookings = before ++ .start c :: since ∧
    Machine.run? Machine.free empty before = some t ∧ t.start c = some (id, u)

variable {bookings since earlier : List Booking} {told : List (DispatchId × Abort)}
  {t u : ChannelTable} {b : Booking} {c c' : ChannelId} {id id' : DispatchId} {reason : Abort}

/-! ### One booking more -/

private theorem concat_eq_append_cons {α : Type} {l before after : List α} {x y : α} :
    l ++ [y] = before ++ x :: after ↔
      after = [] ∧ l = before ∧ y = x ∨ ∃ rest, after = rest ++ [y] ∧ l = before ++ x :: rest := by
  rcases List.eq_nil_or_concat after with rfl | ⟨rest, z, rfl⟩
  · simp
  · rw [List.concat_eq_append, ← List.cons_append, ← List.append_assoc,
      List.append_singleton_inj]
    simp only [List.append_eq_nil_iff, List.cons_ne_nil, and_false, false_and, false_or,
      List.append_singleton_inj]
    exact ⟨fun ⟨hl, hy⟩ => ⟨rest, ⟨rfl, hy.symm⟩, hl⟩, fun ⟨_, ⟨hrest, hz⟩, hl⟩ =>
      ⟨hrest ▸ hl, hz.symm⟩⟩

/-- A request was accepted by the last booking, or it was accepted before. -/
theorem began_concat (hrun : Machine.run? Machine.free empty bookings = some t) :
    Began (bookings ++ [b]) c id since ↔
      since = [] ∧ b = .start c ∧ (∃ u, t.start c = some (id, u)) ∨
        ∃ earlier, since = earlier ++ [b] ∧ Began bookings c id earlier := by
  constructor
  · rintro ⟨before, v, u, hsplit, hbefore, hstart⟩
    rcases concat_eq_append_cons.1 hsplit with ⟨rfl, rfl, rfl⟩ | ⟨rest, rfl, rfl⟩
    · rw [hrun] at hbefore
      cases hbefore
      exact .inl ⟨rfl, rfl, u, hstart⟩
    · exact .inr ⟨rest, rfl, before, v, u, rfl, hbefore, hstart⟩
  · rintro (⟨rfl, rfl, u, hstart⟩ | ⟨earlier, rfl, before, v, u, rfl, hbefore, hstart⟩)
    · exact ⟨bookings, t, u, rfl, hrun, hstart⟩
    · exact ⟨before, v, u, by simp, hbefore, hstart⟩

theorem reaches_concat : Reaches (earlier ++ [b]) c id reason ↔
    Reaches earlier c id reason ∨ b = .abort c reason ∧ ∀ b ∈ earlier, ¬ b.Frees c id := by
  constructor
  · rintro ⟨before, after, hsplit, hheld⟩
    rcases concat_eq_append_cons.1 hsplit with ⟨-, rfl, rfl⟩ | ⟨rest, -, rfl⟩
    · exact .inr ⟨rfl, hheld⟩
    · exact .inl ⟨before, rest, rfl, hheld⟩
  · rintro (⟨before, after, rfl, hheld⟩ | ⟨rfl, hheld⟩)
    · exact ⟨before, after ++ [b], by simp, hheld⟩
    · exact ⟨earlier, [], rfl, hheld⟩

/-- **The entries after a booking**: a request that has just been accepted, and those that were
there and are not taken off. -/
theorem dispatchOn?_book (h : t.book? b = some u) : u.dispatchOn? c = some id ↔
    b = .start c ∧ (∃ v, t.start c = some (id, v)) ∨
      t.dispatchOn? c = some id ∧ ¬ b.Frees c id := by
  cases b with
  | allocate draws =>
    obtain ⟨⟨channel, next⟩, hallocate, rfl⟩ := Option.map_eq_some_iff.1 h
    simp [dispatchOn?, (allocate_requests hallocate).1, Booking.Frees]
  | start channel =>
    obtain rfl := Option.some.inj h
    rcases hstart : t.start channel with _ | r
    · have hother : channel = c → ∀ v, t.start c ≠ some (id, v) := by
        rintro rfl v
        simp [hstart]
      simp only [Option.elim_none, Booking.Frees, Booking.start.injEq, reduceCtorEq, or_false,
        not_false_eq_true, and_true]
      refine (or_iff_right ?_).symm
      rintro ⟨hc, v, hv⟩
      exact hother hc v hv
    · obtain ⟨hfree, hr⟩ := start_eq_some.1 hstart
      rw [Option.elim_some, dispatchOn?_start hstart]
      by_cases hc : c = channel
      · subst hc
        rw [if_pos rfl, hstart, hfree]
        simp [hr]
      · rw [if_neg hc]
        simp [Booking.Frees, Ne.symm hc]
  | abort channel reason =>
    obtain rfl := Option.some.inj h
    rw [dispatchOn?_abort]
    by_cases hc : reason = .resync ∧ c = channel
    · simp [Booking.Frees, hc]
    · rw [if_neg hc]
      simp only [Booking.Frees, reduceCtorEq, false_and, false_or, Booking.abort.injEq]
      refine (and_iff_left ?_).symm
      rintro ⟨hchannel, hreason⟩
      exact hc ⟨hreason, hchannel.symm⟩
  | finish channel number =>
    obtain rfl := Option.some.inj h
    rw [dispatchOn?_finish]
    simp only [Booking.Frees, reduceCtorEq, false_and, or_false, false_or, Booking.finish.injEq]
    by_cases hc : c = channel
    · subst hc
      simp only [true_and]
      split_ifs with hown
      · rw [hown]
        simp [eq_comm]
      · exact ⟨fun hon => ⟨hon, fun hid => hown (hid ▸ hon)⟩, And.left⟩
    · simp [hc, Ne.symm hc]

/-- A request that is signalled has its entry on the channel that is given up. -/
theorem mem_signals : (id, reason) ∈ t.signals b ↔
    ∃ c, b = .abort c reason ∧ t.dispatchOn? c = some id := by
  cases b with
  | abort channel r =>
    simp only [signals, abort_fst, Option.mem_toList, Option.map_eq_some_iff, Prod.mk.injEq,
      Booking.abort.injEq]
    constructor
    · rintro ⟨_, hon, rfl, rfl⟩
      exact ⟨channel, ⟨rfl, rfl⟩, hon⟩
    · rintro ⟨_, ⟨rfl, rfl⟩, hon⟩
      exact ⟨id, hon, rfl, rfl⟩
  | _ => simp [signals]

/-- A booking signals one request at most, and for one reason. -/
theorem signals_unique (h : (id, reason) ∈ t.signals b) : t.signals b = [(id, reason)] := by
  cases b with
  | abort channel r =>
    rw [signals, Option.mem_toList] at h
    rw [signals, h, Option.toList_some]
  | _ => cases h

/-- What a request was told last, after a booking. -/
theorem lastTold_append : lastTold (told ++ t.signals b) id = some reason ↔
    (id, reason) ∈ t.signals b ∨
      lastTold told id = some reason ∧ ∀ reason', (id, reason') ∉ t.signals b := by
  rcases hsignals : t.signals b with _ | ⟨⟨x, r⟩, rest⟩
  · simp
  · obtain rfl : rest = [] := by
      have := signals_unique (b := b) (t := t) (hsignals ▸ List.mem_cons_self ..)
      rw [hsignals] at this
      exact (List.cons.inj this).2
    simp only [lastTold, List.reverse_concat, List.lookup_cons, List.mem_singleton,
      Prod.mk.injEq]
    by_cases hx : id = x
    · subst hx
      simp [eq_comm]
    · have : (id == x) = false := by simpa using hx
      simp [this, hx]

/-! ### All bookings -/

/-- The entries of a table, as they follow from its bookings, and what the requests were told. -/
structure Ledger (bookings : List Booking) (told : List (DispatchId × Abort)) (t : ChannelTable) :
    Prop where
  single : (t.inFlight.map (·.1)).Nodup
  /-- A request has its entry since it was accepted and as long as nothing takes it off. -/
  entered : ∀ c id, t.dispatchOn? c = some id ↔
    ∃ since, Began bookings c id since ∧ ∀ b ∈ since, ¬ b.Frees c id
  numbered : ∀ c id since, Began bookings c id since → id < t.nextDispatch
  unique : ∀ c c' id since since', Began bookings c id since → Began bookings c' id since' →
    c = c' ∧ since = since'
  known : ∀ id reason, (id, reason) ∈ told → id < t.nextDispatch
  resynced : ∀ c id since, Began bookings c id since →
    (lastTold told id = some .resync ↔ Reaches since c id .resync)
  /-- A request that CANCEL reaches, and INIT does not, was told so last. -/
  cancelled : ∀ c id since, Began bookings c id since →
    (lastTold told id = some .cancel ↔
      ¬ Reaches since c id .resync ∧ Reaches since c id .cancel)

theorem not_began_nil : ¬ Began [] c id since := by
  rintro ⟨before, t, u, hsplit, -⟩
  cases before <;> cases hsplit

/-- Numbers are given out in ascending order. -/
theorem nextDispatch_le (h : t.book? b = some u) : t.nextDispatch ≤ u.nextDispatch := by
  cases b with
  | allocate draws =>
    obtain ⟨⟨channel, next⟩, hallocate, rfl⟩ := Option.map_eq_some_iff.1 h
    exact (allocate_requests hallocate).2.ge
  | start channel =>
    obtain rfl := Option.some.inj h
    rcases hstart : t.start channel with _ | r
    · exact Nat.le_refl _
    · obtain ⟨-, rfl⟩ := start_eq_some.1 hstart
      exact Nat.le_succ _
  | abort channel reason =>
    obtain rfl := Option.some.inj h
    exact (nextDispatch_abort ..).ge
  | finish channel id =>
    obtain rfl := Option.some.inj h
    exact (nextDispatch_finish ..).ge

/-- A channel has one entry at most after a booking, too. -/
theorem single_book (hsingle : (t.inFlight.map (·.1)).Nodup) (h : t.book? b = some u) :
    (u.inFlight.map (·.1)).Nodup := by
  have hrelease (channel : ChannelId) : ((t.release channel).inFlight.map (·.1)).Nodup :=
    hsingle.sublist (List.filter_sublist.map _)
  cases b with
  | allocate draws =>
    obtain ⟨⟨channel, next⟩, hallocate, rfl⟩ := Option.map_eq_some_iff.1 h
    exact (allocate_requests hallocate).1 ▸ hsingle
  | start channel =>
    obtain rfl := Option.some.inj h
    rcases hstart : t.start channel with _ | r
    · exact hsingle
    · obtain ⟨hfree, rfl⟩ := start_eq_some.1 hstart
      refine List.nodup_cons.2 ⟨fun hmem => ?_, hsingle⟩
      obtain ⟨entry, hentry, hchannel⟩ := List.mem_map.1 hmem
      simpa [hchannel] using List.lookup_eq_none_iff.1 hfree entry hentry
  | abort channel reason =>
    obtain rfl := Option.some.inj h
    rw [abort]
    rcases t.dispatchOn? channel with _ | id
    · exact hsingle
    · cases reason with
      | cancel => exact hsingle
      | resync => exact hrelease channel
  | finish channel id =>
    obtain rfl := Option.some.inj h
    rw [finish]
    split
    · exact hrelease channel
    · exact hsingle

namespace Ledger

theorem empty : Ledger [] [] empty where
  single := List.nodup_nil
  entered c id := by simp [ChannelTable.empty, dispatchOn?, not_began_nil]
  numbered _ _ _ h := absurd h not_began_nil
  unique _ _ _ _ _ h := absurd h not_began_nil
  known _ _ h := by cases h
  resynced _ _ _ h := absurd h not_began_nil
  cancelled _ _ _ h := absurd h not_began_nil

/-- An entry in the list is found. -/
theorem mem_inFlight (h : Ledger bookings told t) :
    (c, id) ∈ t.inFlight ↔ t.dispatchOn? c = some id := by
  have hsingle := h.single
  rw [dispatchOn?, List.lookup_eq_some_iff]
  constructor
  · intro hmem
    obtain ⟨before, after, hsplit⟩ := List.append_of_mem hmem
    refine ⟨before, after, hsplit, fun entry hentry => ?_⟩
    rw [hsplit, List.map_append, List.nodup_append] at hsingle
    have := hsingle.2.2 entry.1 (List.mem_map_of_mem hentry) c (by simp)
    simpa using Ne.symm this
  · rintro ⟨before, after, hsplit, -⟩
    rw [hsplit]
    simp

/-- A request that was accepted before is told so by a booking if it is reached by it. -/
theorem reaches_concat_iff (h : Ledger bookings told t) (hbegan : Began bookings c id earlier) :
    Reaches (earlier ++ [b]) c id reason ↔
      Reaches earlier c id reason ∨ (id, reason) ∈ t.signals b := by
  rw [reaches_concat, mem_signals]
  refine or_congr_right ⟨fun ⟨hb, hheld⟩ => ⟨c, hb, (h.entered c id).2 ⟨_, hbegan, hheld⟩⟩, ?_⟩
  rintro ⟨c', hb, hon⟩
  obtain ⟨since, hbegan', hheld⟩ := (h.entered c' id).1 hon
  obtain ⟨rfl, rfl⟩ := h.unique _ _ _ _ _ hbegan hbegan'
  exact ⟨hb, hheld⟩

theorem not_reaches_resync (h : Ledger bookings told t) (hbegan : Began bookings c id earlier)
    (htold : (id, reason) ∈ t.signals b) : ¬ Reaches earlier c id .resync := by
  rintro ⟨before, after, rfl, -⟩
  obtain ⟨c', -, hon⟩ := mem_signals.1 htold
  obtain ⟨since, hbegan', hheld⟩ := (h.entered c' id).1 hon
  obtain ⟨rfl, rfl⟩ := h.unique _ _ _ _ _ hbegan hbegan'
  exact hheld _ (List.mem_append_right _ (List.mem_cons_self ..)) (.inr rfl)

/-- A request that is accepted has a number that nobody was told of, and that no other has. -/
theorem fresh (h : Ledger bookings told t) (hstart : t.start c = some (id, u)) :
    lastTold told id = none ∧ ∀ c' since, ¬ Began bookings c' id since := by
  obtain ⟨-, heq⟩ := start_eq_some.1 hstart
  obtain rfl : id = t.nextDispatch := (Prod.mk.inj heq).1
  refine ⟨List.lookup_eq_none_iff.2 fun entry hentry => ?_, fun c' since hbegan =>
    Nat.lt_irrefl _ (h.numbered _ _ _ hbegan)⟩
  have hless := h.known entry.1 entry.2 (List.mem_reverse.1 hentry)
  simpa using Nat.ne_of_gt hless

section

variable (h : Ledger bookings told t)
  (hrun : Machine.run? Machine.free ChannelTable.empty bookings = some t)

include h hrun

/-- The request was accepted just now, or it had its entry and keeps it. -/
theorem entered_concat (hbook : t.book? b = some u) : u.dispatchOn? c = some id ↔
    ∃ since, Began (bookings ++ [b]) c id since ∧ ∀ b ∈ since, ¬ b.Frees c id := by
  rw [dispatchOn?_book hbook, h.entered c id]
  constructor
  · rintro (⟨hb, hstart⟩ | ⟨⟨since, hold, hheld⟩, hb⟩)
    · exact ⟨[], (began_concat hrun).2 (.inl ⟨rfl, hb, hstart⟩), List.forall_mem_nil _⟩
    · exact ⟨since ++ [b], (began_concat hrun).2 (.inr ⟨since, rfl, hold⟩),
        List.forall_mem_append.2 ⟨hheld, List.forall_mem_singleton.2 hb⟩⟩
  · rintro ⟨since, hnew, hheld⟩
    rcases (began_concat hrun).1 hnew with ⟨-, hb, hstart⟩ | ⟨earlier, rfl, hold⟩
    · exact .inl ⟨hb, hstart⟩
    · obtain ⟨hheld, hb⟩ := List.forall_mem_append.1 hheld
      exact .inr ⟨⟨earlier, hold, hheld⟩, hb b (List.mem_singleton_self b)⟩

theorem numbered_concat (hbook : t.book? b = some u)
    (hnew : Began (bookings ++ [b]) c id since) : id < u.nextDispatch := by
  rcases (began_concat hrun).1 hnew with ⟨-, rfl, v, hstart⟩ | ⟨earlier, -, hold⟩
  · obtain ⟨-, heq⟩ := start_eq_some.1 hstart
    obtain rfl := Option.some.inj hbook
    rw [(Prod.mk.inj heq).1, hstart, Option.elim_some, (Prod.mk.inj heq).2]
    exact Nat.lt_succ_self _
  · exact Nat.lt_of_lt_of_le (h.numbered _ _ _ hold) (nextDispatch_le hbook)

/-- A number that is given out just now was not given out before. -/
theorem unique_concat {since' : List Booking} (hone : Began (bookings ++ [b]) c id since)
    (htwo : Began (bookings ++ [b]) c' id since') : c = c' ∧ since = since' := by
  rcases (began_concat hrun).1 hone with ⟨rfl, rfl, v, hstart⟩ | ⟨earlier, rfl, hold⟩ <;>
    rcases (began_concat hrun).1 htwo with ⟨rfl, hb, v', hstart'⟩ | ⟨earlier', rfl, hold'⟩
  · exact ⟨Booking.start.inj hb, rfl⟩
  · exact absurd hold' ((h.fresh hstart).2 _ _)
  · exact absurd hold ((h.fresh hstart').2 _ _)
  · obtain ⟨rfl, rfl⟩ := h.unique _ _ _ _ _ hold hold'
    exact ⟨rfl, rfl⟩

omit hrun in
theorem known_append (hbook : t.book? b = some u) (htold : (id, reason) ∈ told ++ t.signals b) :
    id < u.nextDispatch := by
  refine Nat.lt_of_lt_of_le ?_ (nextDispatch_le hbook)
  rcases List.mem_append.1 htold with htold | htold
  · exact h.known _ _ htold
  · obtain ⟨c, -, hon⟩ := mem_signals.1 htold
    obtain ⟨since, hold, -⟩ := (h.entered c id).1 hon
    exact h.numbered _ _ _ hold

/-- A request that was accepted just now has been told nothing; any other was accepted before. -/
theorem untold_or_began (hnew : Began (bookings ++ [b]) c id since) :
    (∀ reason, ¬ Reaches since c id reason ∧ lastTold (told ++ t.signals b) id ≠ some reason) ∨
      ∃ earlier, since = earlier ++ [b] ∧ Began bookings c id earlier := by
  rcases (began_concat hrun).1 hnew with ⟨rfl, rfl, v, hstart⟩ | hold
  · refine .inl fun reason => ⟨by simp [Reaches], ?_⟩
    have hquiet : t.signals (.start c) = [] := rfl
    rw [hquiet, List.append_nil, (h.fresh hstart).1]
    exact (Option.some_ne_none reason).symm
  · exact .inr hold

theorem resynced_concat (hnew : Began (bookings ++ [b]) c id since) :
    lastTold (told ++ t.signals b) id = some .resync ↔ Reaches since c id .resync := by
  rcases h.untold_or_began hrun hnew with huntold | ⟨earlier, rfl, hold⟩
  · exact iff_of_false (huntold .resync).2 (huntold .resync).1
  · rw [lastTold_append, h.reaches_concat_iff hold, ← h.resynced _ _ _ hold, or_comm]
    refine or_congr_left (and_iff_left_of_imp fun hlast reason htold => ?_)
    exact h.not_reaches_resync hold htold ((h.resynced _ _ _ hold).1 hlast)

theorem cancelled_concat (hnew : Began (bookings ++ [b]) c id since) :
    lastTold (told ++ t.signals b) id = some .cancel ↔
      ¬ Reaches since c id .resync ∧ Reaches since c id .cancel := by
  rcases h.untold_or_began hrun hnew with huntold | ⟨earlier, rfl, hold⟩
  · exact iff_of_false (huntold .cancel).2 fun hreached => (huntold .cancel).1 hreached.2
  · rw [lastTold_append, h.reaches_concat_iff hold, h.reaches_concat_iff hold,
      h.cancelled _ _ _ hold]
    constructor
    · rintro (hnow | ⟨⟨hinit, hcancel⟩, hquiet⟩)
      · -- CANCEL tells it now, so INIT has not reached it, neither before nor now.
        refine ⟨fun hinit => ?_, .inr hnow⟩
        rcases hinit with hinit | hinit
        · exact h.not_reaches_resync hold hnow hinit
        · rw [signals_unique hnow] at hinit
          cases List.mem_singleton.1 hinit
      · exact ⟨fun hinit' => hinit'.elim hinit (hquiet _), .inl hcancel⟩
    · rintro ⟨hinit, hcancel | hnow⟩
      · by_cases hnow : (id, .cancel) ∈ t.signals b
        · exact .inl hnow
        · refine .inr ⟨⟨fun h => hinit (.inl h), hcancel⟩, fun reason => ?_⟩
          cases reason with
          | cancel => exact hnow
          | resync => exact fun h => hinit (.inr h)
      · exact .inl hnow

/-- **A booking keeps the ledger.** -/
theorem step (hbook : t.book? b = some u) :
    Ledger (bookings ++ [b]) (told ++ t.signals b) u where
  single := single_book h.single hbook
  entered _ _ := h.entered_concat hrun hbook
  numbered _ _ _ := h.numbered_concat hrun hbook
  unique _ _ _ _ _ := h.unique_concat hrun
  known _ _ := h.known_append hbook
  resynced _ _ _ := h.resynced_concat hrun
  cancelled _ _ _ := h.cancelled_concat hrun

end

/-- The ledger of a table in use. -/
theorem run (hrun : Machine.run? Machine.free ChannelTable.empty bookings = some t) :
    Ledger bookings (Machine.observe signals ChannelTable.empty bookings) t := by
  induction bookings using List.reverseRecOn generalizing t with
  | nil =>
    cases hrun
    exact empty
  | append_singleton bookings b ih =>
    obtain ⟨s, hbefore, -, hbook⟩ := Machine.run?_concat.1 hrun
    rw [Machine.observe_append hbefore, Machine.observe_cons hbook, Machine.observe,
      List.append_nil]
    exact (ih hbefore).step hbefore hbook

end Ledger

/-- **Entries are exact.** Whatever was done to a table, a request has an entry on a channel if and
only if it was accepted there and nothing has taken it off since: neither the request itself nor
INIT on its channel. A channel has one entry at most, a further request on it is refused if and only
if it has one, and no number is given out twice. A request that takes itself off leaves the entries
of all others. Who is given up on a channel is who has its entry, and what a request was told last
is INIT if that reached it while it had its entry, CANCEL if only that did, and otherwise
nothing. -/
theorem entries_are_exact (hrun : Machine.run? Machine.free empty bookings = some t)
    (htold : told = Machine.observe signals empty bookings) :
    (∀ c id, (c, id) ∈ t.inFlight ↔
      ∃ since, Began bookings c id since ∧ ∀ b ∈ since, ¬ b.Frees c id) ∧
    (t.inFlight.map (·.1)).Nodup ∧
    (∀ c, t.start c = none ↔ ∃ id, (c, id) ∈ t.inFlight) ∧
    (∀ c c' id since since', Began bookings c id since → Began bookings c' id since' →
      c = c' ∧ since = since') ∧
    (∀ c id c' id', id' ≠ id → ((c', id') ∈ (t.finish c id).inFlight ↔ (c', id') ∈ t.inFlight)) ∧
    (∀ c reason id, (t.abort c reason).1 = some id ↔ (c, id) ∈ t.inFlight) ∧
    ∀ c id since, Began bookings c id since →
      (lastTold told id = some .resync ↔ Reaches since c id .resync) ∧
      (lastTold told id = some .cancel ↔
        ¬ Reaches since c id .resync ∧ Reaches since c id .cancel) := by
  subst htold
  have h := Ledger.run hrun
  refine ⟨fun c id => h.mem_inFlight.trans (h.entered c id), h.single, fun c => ?_, h.unique,
    fun c id c' id' hother => ?_, fun c reason id => by rw [abort_fst, h.mem_inFlight],
    fun c id since hbegan => ⟨h.resynced c id since hbegan, h.cancelled c id since hbegan⟩⟩
  · simp only [h.mem_inFlight, ← Option.isSome_iff_exists, start]
    cases t.dispatchOn? c <;> simp
  · have hafter : Machine.run? Machine.free empty (bookings ++ [.finish c id]) =
        some (t.finish c id) := Machine.run?_concat.2 ⟨t, hrun, rfl, rfl⟩
    rw [(Ledger.run hafter).mem_inFlight, h.mem_inFlight, dispatchOn?_finish]
    split_ifs with hown
    · refine iff_of_false not_false fun hon => hother ?_
      rw [hown.1, hown.2] at hon
      exact (Option.some.inj hon).symm
    · rfl

/-- A request is cancelled and then dropped by INIT, another one is accepted on its channel, and
then the first one takes itself off. -/
def lateBookings : List Booking :=
  [.start 5, .abort 5 .cancel, .abort 5 .resync, .start 5, .finish 5 0]

/-- The other request keeps its entry, and the first one was told last that INIT dropped it. -/
theorem entries_are_exact_after_late_finish :
    Machine.run? Machine.free empty lateBookings =
      some { empty with inFlight := [(5, 1)], nextDispatch := 2 } ∧
    Machine.observe signals empty lateBookings = [(0, .cancel), (0, .resync)] ∧
    Began lateBookings 5 0 [.abort 5 .cancel, .abort 5 .resync, .start 5, .finish 5 0] ∧
    lastTold [(0, .cancel), (0, .resync)] 0 = some .resync ∧
    (∃ since, Began lateBookings 5 1 since ∧ ∀ b ∈ since, ¬ b.Frees 5 1) ∧
    ({ empty with inFlight := [(5, 1)], nextDispatch := 2 } : ChannelTable).start 5 = none := by
  have hrun : Machine.run? Machine.free empty lateBookings =
      some { empty with inFlight := [(5, 1)], nextDispatch := 2 } := rfl
  have htold : Machine.observe signals empty lateBookings = [(0, .cancel), (0, .resync)] := rfl
  have hbegan : Began lateBookings 5 0
      [.abort 5 .cancel, .abort 5 .resync, .start 5, .finish 5 0] :=
    ⟨[], _, _, rfl, rfl, rfl⟩
  obtain ⟨hentries, -, hrefused, -, -, -, hlast⟩ := entries_are_exact hrun htold.symm
  refine ⟨hrun, htold, hbegan, (hlast _ _ _ hbegan).1.2 ?_, (hentries 5 1).1 (by simp),
    (hrefused 5).2 ⟨1, by simp⟩⟩
  refine ⟨[.abort 5 .cancel], _, rfl, fun b hb => ?_⟩
  rw [List.mem_singleton.1 hb, Booking.Frees]
  decide

end ChannelTable

end Ctap.Gateway
