import Ctap.Proofs.Gateway.Books
import Ctap.Proofs.Gateway.Entries
import Ctap.Proofs.Gateway.Issuing

/-!
# What a gateway books

A gateway does nothing to its channel table but book: what follows from a message is one booking at
most, and a request takes itself off its channel once its outcome is decided. So the channel table
of a gateway is one in use, and remembers channels and enters requests as such tables do. A request
that is not over has the signal that it was told last.

## Main definitions

* `Reaction.Booked`: the bookings that a reaction amounts to.
* `Journal`: the bookings that lead to the state of a gateway.

## Main results

* `respond_booked`: what a message books.
* `Journal.step`, `System.booked`: what an event books, and what a run does.
-/

namespace Ctap.Gateway

open Hid (ChannelId)

/-! ### What a message books -/

/-- Whether a reaction amounts to bookings: they lead to its table and signal the same request, and
a request that is accepted starts there. -/
structure Reaction.Booked (r : Reaction) (table : ChannelTable) (bookings : List Booking) :
    Prop where
  run : Machine.run? Machine.free table bookings = some r.table
  /-- The bookings signal the request that the reaction signals. -/
  signals : Machine.observe ChannelTable.signals table bookings = r.signal.toList
  /-- A request is accepted on a channel that is free, and nobody is signalled then. -/
  accepted : ∀ a ∈ r.accepted, r.signal = none ∧ table.start a.channel = some (a.id, r.table)

namespace Reaction

variable {r : Reaction} {table : ChannelTable} {b : Booking}

theorem booked_send (table : ChannelTable) (reports : List Bytes) :
    (send table reports).Booked table [] := ⟨rfl, rfl, by simp [send]⟩

theorem booked_one (hbook : table.book? b = some r.table)
    (hsignals : table.signals b = r.signal.toList)
    (haccepted : ∀ a ∈ r.accepted, r.signal = none ∧ table.start a.channel = some (a.id, r.table)) :
    r.Booked table [b] :=
  ⟨Machine.run?_cons.2 ⟨rfl, _, hbook, rfl⟩,
    by rw [Machine.observe_cons hbook, hsignals, Machine.observe, List.append_nil], haccepted⟩

end Reaction

variable {config : Config} {draws : List ChannelId} {table : ChannelTable} {channel : ChannelId}
  {r : Reaction}

theorem welcomeNew_booked {nonce : Bytes} (h : welcomeNew config draws table nonce = some r) :
    ∃ bookings, r.Booked table bookings := by
  rw [welcomeNew] at h
  split_ifs at h
  · split at h
    · cases h
    · rename_i hallocate
      cases h
      exact ⟨[.allocate draws], Reaction.booked_one
        (Option.map_eq_some_iff.2 ⟨_, hallocate, rfl⟩) rfl (by simp [Reaction.send])⟩
  · cases h
    exact ⟨[], Reaction.booked_send ..⟩

theorem welcomeBack_booked (config : Config) (table : ChannelTable) (channel : ChannelId)
    (nonce : Bytes) :
    ∃ bookings, (welcomeBack config table channel nonce).Booked table bookings := by
  rw [welcomeBack]
  split_ifs
  · exact ⟨[.abort channel .resync], Reaction.booked_one rfl rfl (by simp)⟩
  · exact ⟨[], Reaction.booked_send ..⟩

theorem accept_booked (table : ChannelTable) (channel : ChannelId) (request : Bytes) :
    ∃ bookings, (accept table channel request).Booked table bookings := by
  rw [accept]
  split
  · exact ⟨[], Reaction.booked_send ..⟩
  · rename_i id next hstart
    refine ⟨[.start channel], Reaction.booked_one ?_ rfl ?_⟩
    · simp [ChannelTable.book?, hstart]
    · simp [hstart]

/-- **What a message books.** -/
theorem respond_booked {command : UInt8} {payload : Bytes}
    (h : respond config draws table channel command payload = some r) :
    ∃ bookings, r.Booked table bookings := by
  rw [respond] at h
  split_ifs at h
  · exact welcomeNew_booked h
  · cases h
    exact ⟨[], Reaction.booked_send ..⟩
  · cases h
    exact ⟨[], Reaction.booked_send ..⟩
  · split at h <;> cases h
    · exact welcomeBack_booked ..
    · exact ⟨[], Reaction.booked_send ..⟩
    · exact accept_booked ..
    · exact ⟨[.abort channel .cancel], Reaction.booked_one rfl rfl (by simp [cancel])⟩
    · exact ⟨[], Reaction.booked_send ..⟩

/-! ### What an event books -/

variable {δ : Type} {s t : System δ} {now : Time} {e : Event δ} {bookings : List Booking}
  {told : List (DispatchId × Abort)}

/-- The bookings that lead to the state of a gateway. -/
structure Journal (bookings : List Booking) (s : System δ) : Prop where
  run : Machine.run? Machine.free ChannelTable.empty bookings = some s.table
  told : ∀ id d, s.dispatch? id = some d →
    d.signal = lastTold (Machine.observe ChannelTable.signals ChannelTable.empty bookings) id

/-- A request that is told something was told that last. -/
theorem lastTold_told {d : Dispatch δ} (h : d.signal = lastTold told d.id)
    (signal : Option (DispatchId × Abort)) :
    (System.told signal d).signal = lastTold (told ++ signal.toList) d.id := by
  rcases signal with _ | ⟨id, reason⟩
  · rw [Option.toList_none, List.append_nil]
    exact h
  · rw [lastTold, Option.toList_some, List.reverse_concat, List.lookup_cons]
    by_cases hid : d.id = id
    · simp [System.told, hid]
    · have : (d.id == id) = false := by simpa using hid
      simp only [System.told, if_neg hid, this, h, lastTold]

namespace Journal

theorem fresh (config : Config) : Journal [] (System.fresh config : System δ) :=
  ⟨rfl, by simp [System.fresh, System.dispatch?]⟩

/-- A reaction that amounts to bookings. -/
theorem react (h : Journal bookings s) {more : List Booking} (hr : r.Booked s.table more)
    (l : Listener) : Journal (bookings ++ more) (s.react now l r) := by
  refine ⟨Machine.run?_append h.run hr.run, fun id d hd => ?_⟩
  rw [Machine.observe_append h.run, hr.signals]
  rw [System.dispatch?_react] at hd
  rcases hold : s.dispatch? id with _ | d'
  · -- The request has just been accepted, so nobody was told anything under its number.
    rw [hold, Option.map_none, Option.none_or] at hd
    obtain ⟨a, ha, rfl⟩ := Option.map_eq_some_iff.1 hd
    obtain ⟨haccepted, hid⟩ := Option.filter_eq_some_iff.1 ha
    obtain rfl : a.id = id := by simpa using hid
    obtain ⟨hsignal, hstart⟩ := hr.accepted a haccepted
    rw [hsignal, Option.toList_none, List.append_nil,
      ((ChannelTable.Ledger.run h.run).fresh hstart).1]
    rfl
  · rw [hold, Option.map_some, Option.some_or, Option.some.injEq] at hd
    have hid := System.id_of_dispatch? hold
    subst hd hid
    exact lastTold_told (h.told _ _ hold) r.signal

/-- An event that concerns a request. -/
theorem turn (h : Journal bookings s) (hs : Books s) {id : DispatchId} {d d' : Dispatch δ}
    {table : ChannelTable} (hd : s.dispatch? id = some d)
    (hturn : d.Turn s.config now s.table e d' table) :
    ∃ more, Journal (bookings ++ more) ({ s with table }.put d') := by
  have htold {x : DispatchId} {dx : Dispatch δ}
      (hx : ({ s with table }.put d').dispatch? x = some dx) : dx.signal =
        lastTold (Machine.observe ChannelTable.signals ChannelTable.empty bookings) x := by
    rw [System.dispatch?_turn hs.alive hd hturn] at hx
    split_ifs at hx with hxid
    · cases hx
      rw [hturn.frame.2.2.2.2, hxid]
      exact h.told id d hd
    · exact h.told x dx hx
  rcases hturn.relayed with ⟨rfl, -⟩ | ⟨rfl, -⟩
  · refine ⟨[], ?_⟩
    rw [List.append_nil]
    exact ⟨h.run, fun x dx hx => htold hx⟩
  · refine ⟨[.finish d.channel d.id], Machine.run?_concat.2 ⟨_, h.run, rfl, rfl⟩, fun x dx hx => ?_⟩
    rw [Machine.observe_append h.run]
    exact (htold hx).trans (congrArg (lastTold · x) (List.append_nil _).symm)

/-- **What an event books.** -/
theorem step (h : Journal bookings s) (hs : Books s) (hstep : s.step? now e = some t) :
    ∃ more, Journal (bookings ++ more) t := by
  rcases hsubject : e.subject? with _ | id
  · rcases System.own_cases hsubject hstep with ⟨report, draws, l, r, -, hhear, rfl⟩ | ⟨-, ht⟩
    · rcases Listener.hear_cases hhear with ⟨m, -, hrespond, -⟩ | ⟨-, hsend⟩
      · obtain ⟨more, hr⟩ := respond_booked hrespond
        exact ⟨more, h.react hr l⟩
      · exact ⟨[], h.react (hsend ▸ Reaction.booked_send ..) l⟩
    · refine ⟨[], ?_⟩
      rw [List.append_nil, ht]
      exact ⟨h.run, h.told⟩
  · rcases System.step_cases hstep with ⟨id, d, d', table, -, hd, hturn, rfl⟩ | ⟨hown, -⟩
    · exact h.turn hs hd hturn
    · rw [hsubject] at hown
      cases hown

end Journal

/-- **A gateway books.** Whatever happens to a gateway, bookings lead to its channel table. So the
table remembers the channels that were handed out, enters the requests in flight as they were
booked, and every request that is not over has the signal that it was told last. -/
theorem System.booked {events : List (Time × Event δ)}
    (hrun : Machine.run? Machine.free (System.fresh config) events = some s) :
    ∃ bookings, Journal bookings s ∧
      s.table.Remembers (Machine.observe ChannelTable.issues ChannelTable.empty bookings) ∧
      ChannelTable.Ledger bookings
        (Machine.observe ChannelTable.signals ChannelTable.empty bookings) s.table := by
  have hjournal : (∃ bookings, Journal bookings s) ∧ Books s := by
    refine Machine.run?_induction (P := fun s => (∃ bookings, Journal bookings s) ∧ Books s)
      (fun s e t ⟨⟨bookings, h⟩, hs⟩ _ hstep => ?_) ⟨⟨[], .fresh config⟩, .fresh config⟩ hrun
    obtain ⟨more, hmore⟩ := h.step hs hstep
    exact ⟨⟨_, hmore⟩, hs.step hstep⟩
  obtain ⟨⟨bookings, h⟩, -⟩ := hjournal
  exact ⟨bookings, h, ChannelTable.Remembers.run h.run, ChannelTable.Ledger.run h.run⟩

end Ctap.Gateway
