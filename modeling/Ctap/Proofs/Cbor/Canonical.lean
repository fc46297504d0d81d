import Ctap.Proofs.Cbor.RoundTrip
import Mathlib.Data.List.Induction
import Mathlib.Tactic.IntervalCases

/-!
# Canonical form

Requests must be in canonical form: every length is definite; every head, which holds an integer or
a length, is as short as it can be; and the keys of every map ascend strictly, by their major types,
then by their lengths, and then octet by octet. The form is described by the octets alone, however
they came about. Heads that are written are as short as they can be, so that a map with integer
keys is in canonical form if its values are and its keys were inserted in this order.

## Main definitions

* `Announces`, `Shortest`: heads with an argument, and the shortest ones.
* `Precedes`: the order of keys.
* `Canonical`: integers, strings and maps in canonical form.

## Main results

* `shortest_head`: heads that are written are the shortest.
* `Canonical.eq_of_append`: octets are in canonical form in one way only.
* `IntMap.canonical_encode`: maps with integer keys.
-/

namespace Ctap

theorem Bytes.toNat_lt (b : Bytes) : toNat b < 256 ^ b.length := by
  induction b using List.reverseRecOn with
  | nil => exact Nat.one_pos
  | append_singleton b octet ih =>
    have hoctet := octet.toNat_lt
    rw [toNat] at ih ⊢
    rw [List.foldl_append, List.foldl_cons, List.foldl_nil, List.length_append,
      List.length_singleton, Nat.pow_succ]
    omega

namespace Cbor

/-! ### Heads -/

/-- A head with a major type and an argument: three bits of the first octet are the major type, and
the other five are the argument itself, or tell how many octets behind it hold the argument. -/
inductive Announces (major : Major) (argument : Nat) : Bytes → Prop
  | within {first : UInt8} (hmajor : Major.ofOctet first = major)
    (hargument : first.toNat % 32 = argument) (hsmall : argument < 24) :
    Announces major argument [first]
  /-- The argument is in one, two, four or eight octets behind the first. -/
  | behind {first : UInt8} {k : Nat} {octets : Bytes} (hmajor : Major.ofOctet first = major)
    (hk : k < 4) (hwidth : first.toNat % 32 = 24 + k) (hlength : octets.length = 2 ^ k)
    (hargument : Bytes.toNat octets = argument) : Announces major argument (first :: octets)

/-- A head that is as short as any with its major type and argument. -/
def Shortest (major : Major) (argument : Nat) (head : Bytes) : Prop :=
  Announces major argument head ∧
    ∀ other, Announces major argument other → head.length ≤ other.length

variable {major major' : Major} {n n' : Nat} {a b x y : Bytes}

theorem Announces.room (h : Announces major n a) :
    a.length = 1 ∧ n < 24 ∨ ∃ k < 4, a.length = 2 ^ k + 1 ∧ n < 256 ^ 2 ^ k := by
  cases h with
  | within _ _ hsmall => exact .inl ⟨rfl, hsmall⟩
  | @behind _ k octets _ hk _ hlength hargument =>
    refine .inr ⟨k, hk, congrArg Nat.succ hlength, ?_⟩
    rw [← hargument, ← hlength]
    exact octets.toNat_lt

/-- A head tells where it ends. -/
theorem Announces.eq_of_append (ha : Announces major n a) (hb : Announces major' n' b)
    (h : a ++ x = b ++ y) : major = major' ∧ n = n' ∧ a = b ∧ x = y := by
  cases ha with
  | within hmajor hargument hsmall =>
    cases hb with
    | within hmajor' hargument' _ =>
      obtain ⟨rfl, rfl⟩ := List.cons.inj h
      exact ⟨hmajor.symm.trans hmajor', hargument.symm.trans hargument', rfl, rfl⟩
    | behind _ _ hwidth' =>
      obtain ⟨rfl, -⟩ := List.cons.inj h
      omega
  | @behind first k octets hmajor _ hwidth hlength hargument =>
    cases hb with
    | within _ hargument' hsmall' =>
      obtain ⟨rfl, -⟩ := List.cons.inj h
      omega
    | @behind first' k' octets' hmajor' _ hwidth' hlength' hargument' =>
      obtain ⟨rfl, hrest⟩ := List.cons.inj h
      obtain rfl : k = k' := by omega
      obtain ⟨rfl, rfl⟩ := List.append_inj hrest (hlength.trans hlength'.symm)
      exact ⟨hmajor.symm.trans hmajor', hargument.symm.trans hargument', rfl, rfl⟩

private theorem announces_ofNat (major : Major) {k : Nat} (hk : k < 4)
    (hn : n < 1 <<< (8 * 2 ^ k)) :
    Announces major n (initialOctet major (24 + k) :: Bytes.ofNat (2 ^ k) n) := by
  refine .behind (major.ofOctet_initialOctet (by omega)) hk ?_ (Bytes.length_ofNat ..)
    (Bytes.toNat_ofNat hn)
  rw [toNat_initialOctet major (by omega)]
  omega

/-- A head that is written has its argument. -/
theorem announces_head (major : Major) (h : n < UInt64.size) :
    Announces major n (head major n) := by
  rw [head]
  split_ifs with hshort h8 h16 h32
  · refine .within (major.ofOctet_initialOctet (by omega)) ?_ hshort
    rw [toNat_initialOctet major (by omega)]
    omega
  · exact announces_ofNat major (k := 0) (by decide) h8
  · exact announces_ofNat major (k := 1) (by decide) h16
  · exact announces_ofNat major (k := 2) (by decide) h32
  · exact announces_ofNat major (k := 3) (by decide) h

/-- A head that is written is no longer than the room that its argument needs. -/
theorem length_head_le (major : Major) {k : Nat} (hk : k < 4) (h : n < 256 ^ 2 ^ k) :
    (head major n).length ≤ 2 ^ k + 1 := by
  rw [head]
  interval_cases k <;> split_ifs <;>
    simp only [List.length_cons, List.length_nil, Bytes.length_ofNat, UInt8.size, UInt16.size,
      UInt32.size] at * <;> omega

/-- **Heads that are written are the shortest.** -/
theorem shortest_head (major : Major) (h : n < UInt64.size) :
    Shortest major n (head major n) := by
  refine ⟨announces_head major h, fun other hother => ?_⟩
  rcases hother.room with ⟨hlength, hless⟩ | ⟨k, hk, hlength, hless⟩
  · rw [head, if_pos hless, hlength, List.length_singleton]
  · rw [hlength]
    exact length_head_le major hk hless

/-! ### The order of keys -/

/-- The major type of an item. -/
def majorOf (octets : Bytes) : Major := Major.ofOctet (octets.headD 0)

/-- The order of keys in canonical form: by major types, then by lengths, then octet by octet. -/
def Precedes (a b : Bytes) : Prop :=
  (majorOf a).toNat < (majorOf b).toNat ∨
    majorOf a = majorOf b ∧ (a.length < b.length ∨ a.length = b.length ∧ a < b)

instance (a b : Bytes) : Decidable (Precedes a b) :=
  inferInstanceAs (Decidable (_ ∨ _ ∧ (_ ∨ _ ∧ _)))

theorem Precedes.ne (h : Precedes a b) : a ≠ b := by
  rintro rfl
  rcases h with h | ⟨-, h | ⟨-, h⟩⟩
  · exact Nat.lt_irrefl _ h
  · exact Nat.lt_irrefl _ h
  · exact List.lt_irrefl _ h

/-! ### Items in canonical form -/

/-- The octets of the entries of a map, given as those of keys and values. -/
def joinEntries (entries : List (Bytes × Bytes)) : Bytes :=
  entries.flatMap fun entry => entry.1 ++ entry.2

/-- Octets that are one item in canonical form: an integer, a string, or a map of such items. Other
items are in no request. -/
inductive Canonical : Bytes → Prop
  | unsigned {head : Bytes} {n : Nat} (h : Shortest .unsigned n head) : Canonical head
  | negative {head : Bytes} {n : Nat} (h : Shortest .negative n head) : Canonical head
  | bytes {head octets : Bytes} (h : Shortest .bytes octets.length head) :
      Canonical (head ++ octets)
  | text {head : Bytes} (characters : String)
      (h : Shortest .text (textOctets characters).length head) :
      Canonical (head ++ textOctets characters)
  | map {head : Bytes} {entries : List (Bytes × Bytes)} (h : Shortest .map entries.length head)
      (hkeys : ∀ entry ∈ entries, Canonical entry.1)
      (hvalues : ∀ entry ∈ entries, Canonical entry.2)
      (hascending : (entries.map Prod.fst).Pairwise Precedes) :
      Canonical (head ++ joinEntries entries)

private theorem joinEntries_inj {entries entries' : List (Bytes × Bytes)}
    (hlength : entries.length = entries'.length)
    (hentries : ∀ entry ∈ entries, ∀ entry' ∈ entries', ∀ x y : Bytes,
      entry.1 ++ (entry.2 ++ x) = entry'.1 ++ (entry'.2 ++ y) → entry = entry' ∧ x = y)
    (h : joinEntries entries ++ x = joinEntries entries' ++ y) : entries = entries' ∧ x = y := by
  induction entries generalizing entries' with
  | nil =>
    obtain rfl := List.length_eq_zero_iff.1 hlength.symm
    exact ⟨rfl, h⟩
  | cons entry entries ih =>
    obtain ⟨entry', entries', rfl⟩ := List.exists_cons_of_length_eq_add_one hlength.symm
    simp only [joinEntries, List.flatMap_cons, List.append_assoc] at h
    obtain ⟨rfl, hrest⟩ :=
      hentries entry (List.mem_cons_self ..) entry' (List.mem_cons_self ..) _ _ h
    obtain ⟨rfl, rfl⟩ := ih (Nat.succ.inj hlength)
      (fun e he e' he' => hentries e (List.mem_cons_of_mem _ he) e' (List.mem_cons_of_mem _ he'))
      hrest
    exact ⟨rfl, rfl⟩

private theorem Canonical.after_head (hb : Canonical b) {head : Bytes}
    (hhead : Announces major n head) (h : head ++ x = b ++ y) :
    (major = .unsigned ∨ major = .negative) ∧ b = head ∧ x = y ∨
    (major = .bytes ∨ major = .text) ∧
      (∃ octets, octets.length = n ∧ b = head ++ octets ∧ x = octets ++ y) ∨
    major = .map ∧ ∃ entries, entries.length = n ∧ (∀ entry ∈ entries, Canonical entry.1) ∧
      (∀ entry ∈ entries, Canonical entry.2) ∧ b = head ++ joinEntries entries ∧
      x = joinEntries entries ++ y := by
  cases hb with
  | unsigned hb =>
    obtain ⟨rfl, -, rfl, rfl⟩ := hhead.eq_of_append hb.1 h
    exact .inl ⟨.inl rfl, rfl, rfl⟩
  | negative hb =>
    obtain ⟨rfl, -, rfl, rfl⟩ := hhead.eq_of_append hb.1 h
    exact .inl ⟨.inr rfl, rfl, rfl⟩
  | bytes hb =>
    rw [List.append_assoc] at h
    obtain ⟨rfl, rfl, rfl, rfl⟩ := hhead.eq_of_append hb.1 h
    exact .inr (.inl ⟨.inl rfl, _, rfl, rfl, rfl⟩)
  | text characters hb =>
    rw [List.append_assoc] at h
    obtain ⟨rfl, rfl, rfl, rfl⟩ := hhead.eq_of_append hb.1 h
    exact .inr (.inl ⟨.inr rfl, _, rfl, rfl, rfl⟩)
  | map hb hkeys hvalues _ =>
    rw [List.append_assoc] at h
    obtain ⟨rfl, rfl, rfl, rfl⟩ := hhead.eq_of_append hb.1 h
    exact .inr (.inr ⟨rfl, _, rfl, hkeys, hvalues, rfl, rfl⟩)

/-- **Octets are in canonical form in one way only**: an item tells where it ends. -/
theorem Canonical.eq_of_append (ha : Canonical a) (hb : Canonical b) (h : a ++ x = b ++ y) :
    a = b ∧ x = y := by
  induction ha generalizing b x y with
  | unsigned ha | negative ha =>
    obtain ⟨-, rfl, rfl⟩ | ⟨hmajor, -⟩ | ⟨hmajor, -⟩ := hb.after_head ha.1 h
    · exact ⟨rfl, rfl⟩
    all_goals exact absurd hmajor (by decide)
  | bytes ha | text characters ha =>
    rw [List.append_assoc] at h
    obtain ⟨hmajor, -⟩ | ⟨-, octets, hlength, rfl, hrest⟩ | ⟨hmajor, -⟩ := hb.after_head ha.1 h
    · exact absurd hmajor (by decide)
    · obtain ⟨rfl, rfl⟩ := List.append_inj hrest hlength.symm
      exact ⟨rfl, rfl⟩
    · exact absurd hmajor (by decide)
  | map ha _ _ _ ihkeys ihvalues =>
    rw [List.append_assoc] at h
    obtain ⟨hmajor, -⟩ | ⟨hmajor, -⟩ | ⟨-, entries, hlength, hkeys, hvalues, rfl, hrest⟩ :=
      hb.after_head ha.1 h
    · exact absurd hmajor (by decide)
    · exact absurd hmajor (by decide)
    · obtain ⟨rfl, rfl⟩ := joinEntries_inj hlength.symm (fun entry he entry' he' x y h => by
        obtain ⟨hkey, hrest⟩ := ihkeys entry he (hkeys entry' he') h
        obtain ⟨hvalue, rfl⟩ := ihvalues entry he (hvalues entry' he') hrest
        exact ⟨Prod.ext hkey hvalue, rfl⟩) hrest
      exact ⟨rfl, rfl⟩

/-! ### What is written is in canonical form -/

theorem canonical_ofInt (n : Int) : Canonical (Value.ofInt n).encode := by
  rw [Value.ofInt]
  split_ifs
  · exact .unsigned (shortest_head .unsigned (UInt64.toNat_lt_size _))
  · exact .negative (shortest_head .negative (UInt64.toNat_lt_size _))

theorem canonical_bytes {octets : Bytes} (h : octets.length < UInt64.size) :
    Canonical (Value.bytes octets).encode := .bytes (shortest_head .bytes h)

theorem canonical_text {characters : String} (h : (textOctets characters).length < UInt64.size) :
    Canonical (Value.text characters).encode := .text characters (shortest_head .text h)

namespace IntMap

variable {m : IntMap}

/-- The entries as they are written. -/
def written (m : IntMap) : List (Bytes × Bytes) :=
  m.entries.map fun entry => ((Value.ofInt entry.1).encode, entry.2.encode)

theorem encode_eq (m : IntMap) :
    m.encode = head .map m.written.length ++ joinEntries m.written := by
  rw [encode, toValue, Value.encode, Value.encodeEntries_eq, written, joinEntries, List.length_map,
    List.length_map, List.flatMap_map, List.flatMap_map]

/-- Maps whose values are in canonical form. -/
def HasCanonicalValues (m : IntMap) : Prop := ∀ entry ∈ m.entries, Canonical entry.2.encode

theorem canonical_written (h : m.HasCanonicalValues) :
    ∀ entry ∈ m.written, Canonical entry.1 ∧ Canonical entry.2 :=
  List.forall_mem_map.2 fun entry hentry => ⟨canonical_ofInt _, h entry hentry⟩

/-- **A map is in canonical form** if its values are and its keys ascend strictly. -/
theorem canonical_encode (hlength : m.written.length < UInt64.size) (hvalues : m.HasCanonicalValues)
    (hkeys : (m.written.map Prod.fst).Pairwise Precedes) : Canonical m.encode := by
  rw [encode_eq]
  exact .map (shortest_head .map hlength) (fun entry h => (canonical_written hvalues entry h).1)
    (fun entry h => (canonical_written hvalues entry h).2) hkeys

namespace HasCanonicalValues

theorem empty : IntMap.empty.HasCanonicalValues := List.forall_mem_nil _

variable (hm : m.HasCanonicalValues) (key : Int64)

include hm

theorem insert {value : Value} (h : Canonical value.encode) :
    (m.insert key value).HasCanonicalValues :=
  List.forall_mem_append.2 ⟨hm, List.forall_mem_singleton.2 h⟩

theorem insertInt (n : Int64) : (m.insertInt key n).HasCanonicalValues :=
  hm.insert key (canonical_ofInt n.toInt)

theorem insertBytes {octets : Bytes} (h : octets.length < UInt64.size) :
    (m.insertBytes key octets).HasCanonicalValues := hm.insert key (canonical_bytes h)

theorem insertText? {text : Option String}
    (h : ∀ characters ∈ text, (textOctets characters).length < UInt64.size) :
    (m.insertText? key text).HasCanonicalValues := by
  cases text with
  | none => exact hm
  | some characters => exact hm.insert key (canonical_text (h characters rfl))

end HasCanonicalValues

end IntMap

end Cbor

end Ctap
