import Ctap.Proofs.Gateway.Register
import Mathlib.Data.List.Perm.Basic
import Mathlib.Data.List.Nodup

/-!
# Channels that are handed out

A gateway draws its channels at random and hands out no channel twice within its memory, which holds
the last 4096 of them. The memory is kept as a set, for the question whether a draw is in it, and as
a list in order, for the question which channel is forgotten next. The two hold the same channels,
whatever is done to the table.

## Main definitions

* `ChannelTable.Remembers`: how a table remembers the channels that were handed out.

## Main results

* `ChannelTable.Remembers.run`: every table in use does.
* `ChannelTable.issues_afresh`: which draws are handed out, and how far apart equal channels are.
-/

namespace Ctap.Gateway

open Hid (ChannelId)

namespace ChannelTable

variable {t u : ChannelTable} {c : ChannelId} {issued : List ChannelId}

/-! ### The set and the list -/

theorem issue_eq_none : t.issue c = none ↔ c ∈ t.issued := by
  rw [issue, ← Std.HashSet.contains_iff_mem]
  split
  · rename_i h
    exact iff_of_true rfl h
  · rename_i h
    exact iff_of_false (Option.some_ne_none _) h

/-- The set and the list forget the same channel. -/
theorem forgetOldest_cases (hmem : ∀ c, c ∈ t.issued ↔ c ∈ t.order) (hnodup : t.order.Nodup) :
    t.forgetOldest.order = t.order.dropLast ∧
      ∀ c, c ∈ t.forgetOldest.issued ↔ c ∈ t.forgetOldest.order := by
  rcases List.eq_nil_or_concat t.order with hnil | ⟨rest, oldest, hlast⟩
  · simp only [forgetOldest, hnil, List.getLast?_nil, List.dropLast_nil, hmem, implies_true,
      and_self]
  · rw [List.concat_eq_append] at hlast
    have hgone : oldest ∉ rest := by
      rw [hlast, ← List.concat_eq_append, List.nodup_concat] at hnodup
      exact hnodup.1
    simp only [forgetOldest, hlast, List.getLast?_concat, List.dropLast_concat, true_and]
    intro c
    rw [Std.HashSet.mem_erase, hmem, hlast, List.mem_append, List.mem_singleton,
      beq_eq_false_iff_ne]
    constructor
    · rintro ⟨hne, hc | rfl⟩
      · exact hc
      · exact absurd rfl hne
    · intro hc
      exact ⟨by rintro rfl; exact hgone hc, .inl hc⟩

/-- How a table remembers the channels that were handed out, which are given in order. -/
structure Remembers (issued : List ChannelId) (t : ChannelTable) : Prop where
  mem_issued : ∀ c, c ∈ t.issued ↔ c ∈ t.order
  /-- The list holds the last of the channels that were handed out, latest first. -/
  order_eq : t.order = issued.reverse.take issuedHistory
  /-- A channel is not handed out again as long as it is remembered. -/
  apart : ∀ window, window <:+: issued → window.length ≤ issuedHistory + 1 → window.Nodup
  ordinary : ∀ c ∈ issued, c ≠ 0 ∧ c ≠ Hid.broadcast

namespace Remembers

theorem empty : Remembers [] empty where
  mem_issued c := by simp [ChannelTable.empty]
  order_eq := rfl
  apart window h _ := by simp [List.infix_nil.1 h]
  ordinary c h := by cases h

variable (h : t.Remembers issued)
include h

theorem length_order : t.order.length ≤ issuedHistory := by
  rw [h.order_eq]
  exact List.length_take_le ..

/-- The channels that are remembered are the end of those that were handed out. -/
theorem order_nodup : t.order.Nodup := by
  have hsuffix : t.order.reverse <:+ issued := by
    rw [h.order_eq, ← List.reverse_prefix, List.reverse_reverse]
    exact List.take_prefix ..
  rw [← List.nodup_reverse]
  refine h.apart _ hsuffix.isInfix ?_
  rw [List.length_reverse]
  exact Nat.le_succ_of_le h.length_order

theorem size_issued : t.issued.size = t.order.length := by
  rw [← Std.HashSet.length_toList]
  refine ((List.perm_ext_iff_of_nodup ?_ h.order_nodup).2 fun c => ?_).length_eq
  · exact Std.HashSet.distinct_toList.imp fun h => by simpa using h
  · rw [Std.HashSet.mem_toList, h.mem_issued]

theorem issue_eq_none_iff : t.issue c = none ↔ c ∈ issued.reverse.take issuedHistory := by
  rw [ChannelTable.issue_eq_none, h.mem_issued, h.order_eq]

/-- A channel that is issued is recorded in front of the others, of which the last is forgotten if
there are too many. -/
theorem order_of_issue (hissue : t.issue c = some u) :
    u.order = (c :: t.order).take issuedHistory ∧ ∀ x, x ∈ u.issued ↔ x ∈ u.order := by
  have hfresh : c ∉ t.order := by
    rw [← h.mem_issued, ← ChannelTable.issue_eq_none, hissue]
    exact Option.some_ne_none _
  have hinsert (x : ChannelId) : x ∈ t.issued.insert c ↔ x ∈ c :: t.order := by
    rw [Std.HashSet.mem_insert, h.mem_issued, List.mem_cons, beq_iff_eq, eq_comm]
  rw [ChannelTable.issue, if_neg (by rwa [Std.HashSet.contains_iff_mem, h.mem_issued]),
    Option.some.injEq] at hissue
  subst hissue
  split_ifs with hfull
  · -- The list is one too long, so what is dropped is the channel beyond the limit.
    obtain ⟨horder, hmem⟩ := forgetOldest_cases
      (t := { t with issued := t.issued.insert c, order := c :: t.order }) hinsert
      (List.nodup_cons.2 ⟨hfresh, h.order_nodup⟩)
    refine ⟨horder.trans ?_, hmem⟩
    rw [List.dropLast_eq_take, List.length_cons, Nat.add_sub_cancel,
      Nat.le_antisymm h.length_order (Nat.le_of_lt_succ hfull)]
  · exact ⟨(List.take_of_length_le (Nat.le_of_not_lt hfull)).symm, hinsert⟩

/-- A table that hands out a channel remembers it. -/
theorem issue (hissue : t.issue c = some u) (hordinary : c ≠ 0 ∧ c ≠ Hid.broadcast) :
    u.Remembers (issued ++ [c]) := by
  obtain ⟨horder, hmem⟩ := h.order_of_issue hissue
  have hfresh : c ∉ issued.reverse.take issuedHistory := by
    rw [← h.issue_eq_none_iff, hissue]
    exact Option.some_ne_none _
  refine ⟨hmem, ?_, fun window hwindow hlength => ?_, ?_⟩
  · rw [horder, h.order_eq, List.reverse_concat, issuedHistory, List.take_succ_cons,
      List.take_succ_cons, List.take_take]
    rfl
  · rcases List.infix_concat_iff.1 hwindow with hend | hbefore
    · rcases List.suffix_concat_iff.1 hend with rfl | ⟨front, rfl, hfront⟩
      · exact List.nodup_nil
      · rw [List.length_append, List.length_singleton, Nat.add_le_add_iff_right] at hlength
        rw [← List.concat_eq_append, List.nodup_concat]
        refine ⟨fun hc => hfresh ?_, h.apart _ hfront.isInfix (Nat.le_succ_of_le hlength)⟩
        have hprefix : front.reverse <+: issued.reverse.take issuedHistory :=
          List.prefix_take_iff.2 ⟨List.reverse_prefix.2 hfront, by rwa [List.length_reverse]⟩
        exact hprefix.subset (List.mem_reverse.2 hc)
    · exact h.apart _ hbefore hlength
  · exact List.forall_mem_append.2 ⟨h.ordinary, List.forall_mem_singleton.2 hordinary⟩

omit h in
theorem step (h : t.Remembers issued) {b : Booking} (hbook : t.book? b = some u) :
    u.Remembers (issued ++ t.issues b) := by
  rcases book?_memory hbook with ⟨c, hissues, hordinary, hissue⟩ | ⟨hissues, hset, hlist⟩
  · rw [hissues]
    exact h.issue hissue hordinary
  · rw [hissues, List.append_nil]
    refine ⟨fun c => ?_, hlist.trans h.order_eq, h.apart, h.ordinary⟩
    rw [hset, hlist, h.mem_issued]

omit h in
/-- **Every table in use remembers** what it handed out. -/
theorem run {bookings : List Booking}
    (hrun : Machine.run? Machine.free ChannelTable.empty bookings = some t) :
    t.Remembers (Machine.observe issues ChannelTable.empty bookings) :=
  Machine.run?_induction_observe (P := fun t issued => t.Remembers issued)
    (fun _ _ _ _ h _ hbook => h.step hbook) empty hrun

end Remembers

/-- **Channels are handed out afresh.** Whatever was done to a table, its set holds the channels of
its list and no other, its list holds the last 4096 channels that were handed out, latest first and
none of them twice, and a channel can be issued if and only if it is not one of these. So of any
4097 channels that were handed out one after the other no two are the same, and none is reserved.
Draws that are not handed out leave everything as it is. -/
theorem issues_afresh {bookings : List Booking}
    (hrun : Machine.run? Machine.free empty bookings = some t)
    (hissued : issued = Machine.observe issues empty bookings) :
    (∀ c, c ∈ t.issued ↔ c ∈ t.order) ∧ t.issued.size = t.order.length ∧ t.order.Nodup ∧
    t.order.length ≤ 4096 ∧ t.order = issued.reverse.take 4096 ∧
    (∀ c, (t.issue c).isSome ↔ c ∉ issued.reverse.take 4096) ∧
    (∀ window, window <:+: issued → window.length ≤ 4097 →
      window.Nodup ∧ ∀ c ∈ window, c ≠ 0 ∧ c ≠ Hid.broadcast) ∧
    ∀ skipped draws, (∀ c ∈ skipped, t.Refuses c) →
      t.allocate (skipped ++ draws) = t.allocate draws := by
  have h : t.Remembers issued := hissued ▸ Remembers.run hrun
  refine ⟨h.mem_issued, h.size_issued, h.order_nodup, h.length_order, h.order_eq, fun c => ?_,
    fun window hwindow hlength => ⟨h.apart window hwindow hlength, fun c hc => ?_⟩,
    fun skipped draws => allocate_skip⟩
  · rw [← Option.ne_none_iff_isSome, ne_eq, h.issue_eq_none_iff]
    rfl
  · exact h.ordinary c (hwindow.subset hc)

/-- A table that has handed out channel 5 and then channel 6. -/
def lately : ChannelTable :=
  { empty with issued := ({5} : Std.HashSet ChannelId).insert 6, order := [6, 5] }

/-- Reserved channels and one that is remembered are drawn, and others are handed out. -/
theorem issues_afresh_skipping :
    Machine.run? Machine.free empty [.allocate [0, 5], .allocate [5, Hid.broadcast, 6]] =
      some lately ∧
    Machine.observe issues empty [.allocate [0, 5], .allocate [5, Hid.broadcast, 6]] = [5, 6] ∧
    ¬ (lately.issue 5).isSome ∧ (lately.issue 7).isSome ∧
    lately.allocate [6, 0, 7] = lately.allocate [7] := by
  have hfirst : empty.allocate [0, 5] =
      some (5, { empty with issued := {5}, order := [5] }) := by
    simp [allocate, isOrdinary, issue, empty, Hid.broadcast, issuedHistory]
  have hsecond : { empty with issued := {5}, order := [5] : ChannelTable }.allocate
      [5, Hid.broadcast, 6] = some (6, lately) := by
    simp [allocate, isOrdinary, issue, lately, Hid.broadcast, issuedHistory]
  have hrun : Machine.run? Machine.free empty
      [.allocate [0, 5], .allocate [5, Hid.broadcast, 6]] = some lately := by
    simp only [Machine.run?, Machine.free, Machine.next?, book?, hfirst, hsecond, if_true,
      Option.map_some, Option.bind_some]
  have hissued : Machine.observe issues empty
      [.allocate [0, 5], .allocate [5, Hid.broadcast, 6]] = [5, 6] := by
    simp only [Machine.observe, Machine.next?, book?, issues, hfirst, hsecond, Option.map_some,
      Option.toList_some, List.append_nil, List.singleton_append]
  obtain ⟨hset, -, -, -, -, hissue, -, hskip⟩ := issues_afresh hrun hissued.symm
  refine ⟨hrun, hissued, ?_, ?_, hskip [6, 0] [7] fun c hc => ?_⟩
  · rw [hissue]
    decide
  · rw [hissue]
    decide
  · rcases List.mem_pair.1 hc with rfl | rfl
    · exact .inr (.inr (issue_eq_none.2 ((hset 6).2 (by decide))))
    · exact .inl rfl

end ChannelTable

end Ctap.Gateway
