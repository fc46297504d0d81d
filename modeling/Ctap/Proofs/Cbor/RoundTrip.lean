import Ctap.Cbor.IntMap
import Mathlib.Tactic.SplitIfs

/-!
# What is written in CBOR is read back

The reader takes exactly what the writer wrote and leaves whatever follows. Left out are floating
point numbers, and tags that the reader takes for integers; lengths and tags must fit their heads,
and containers must not be nested deeper than the reader allows.

## Main definitions

* `Value.Plain`, `IntMap.Plain`: the values within a bound on nesting to which this applies.

## Main results

* `readHead_head`: a head.
* `Value.Plain.readValue_encode`: a value, by its construction.
* `IntMap.Plain.toValue`: a map with integer keys, by the way it is built.
-/

namespace Ctap.Cbor

/-! ### Heads -/

variable {rest : Bytes}

theorem readOctets_append {octets : Bytes} {n : Nat} (h : octets.length = n) (rest : Bytes) :
    readOctets n (octets ++ rest) = some (octets, rest) := by
  simp only [readOctets, List.take_left' h, List.drop_left' h, h, if_true]

theorem Major.toNat_lt (major : Major) : major.toNat < 8 := by cases major <;> decide

theorem toNat_initialOctet (major : Major) {low : Nat} (h : low < 32) :
    (initialOctet major low).toNat = 32 * major.toNat + low := by
  have hmajor := major.toNat_lt
  rw [initialOctet, UInt8.toNat_ofNat', Nat.mod_eq_of_lt (by omega)]

theorem Major.ofOctet_initialOctet (major : Major) {low : Nat} (h : low < 32) :
    Major.ofOctet (initialOctet major low) = major := by
  have hmajor : (initialOctet major low).toNat / 32 = major.toNat := by
    rw [toNat_initialOctet major h]
    omega
  rw [Major.ofOctet, hmajor]
  cases major <;> rfl

theorem readHead_initialOctet (major : Major) {low : Nat} (h : low < 32) {argument : Argument}
    {input : Bytes} (hargument : readArgument low input = some (argument, rest)) :
    readHead (initialOctet major low :: input) = (Head.of? major argument).map (·, rest) := by
  have hlow : (initialOctet major low).toNat % 32 = low := by
    rw [toNat_initialOctet major h]
    omega
  simp only [readHead, Major.ofOctet_initialOctet major h, hlow, hargument, Option.bind_eq_bind,
    Option.bind_some, Option.pure_def, Option.map_eq_bind, Function.comp_def]

theorem readHead_initialOctet_ofNat (major : Major) {low width n : Nat} (hlow : 24 ≤ low)
    (hless : low < 28) (hwidth : 1 <<< (low - 24) = width) (hn : n < 1 <<< (8 * width))
    (rest : Bytes) :
    readHead (initialOctet major low :: (Bytes.ofNat width n ++ rest)) =
      (Head.of? major (.value n width)).map (·, rest) := by
  refine readHead_initialOctet major (by omega) ?_
  rw [readArgument, if_neg (by omega), if_pos hless, hwidth,
    readOctets_append (Bytes.length_ofNat width n)]
  simp only [Bytes.toNat_ofNat hn, Bytes.length_ofNat]

/-- **A head is read back.** -/
theorem readHead_head (major : Major) {n : Nat} (h : n < UInt64.size) (rest : Bytes) :
    ∃ width, readHead (head major n ++ rest) = (Head.of? major (.value n width)).map (·, rest) := by
  rw [head]
  split_ifs with hshort h8 h16 h32
  · exact ⟨0, readHead_initialOctet major (by omega) (by rw [readArgument, if_pos hshort]; rfl)⟩
  · exact ⟨1, readHead_initialOctet_ofNat major (by decide) (by decide) rfl h8 rest⟩
  · exact ⟨2, readHead_initialOctet_ofNat major (by decide) (by decide) rfl h16 rest⟩
  · exact ⟨4, readHead_initialOctet_ofNat major (by decide) (by decide) rfl h32 rest⟩
  · exact ⟨8, readHead_initialOctet_ofNat major (by decide) (by decide) rfl h rest⟩

/-! ### Values -/

theorem readValue_atom {input : Bytes} {head : Head} (h : readHead input = some (head, rest))
    (hatom : head.isContainer = false) (depth : Nat) :
    readValue depth input = readAtom head rest := by
  rcases depth with _ | depth <;> rw [readValue, h] <;> cases head <;>
    first | rfl | cases hatom

theorem readValue_container {input : Bytes} {head : Head} (h : readHead input = some (head, rest))
    (hcontainer : head.isContainer = true) (htag : ∀ number, head ≠ .tag number) (depth : Nat) :
    readValue (depth + 1) input = readContainer (readValue depth) head rest := by
  rw [readValue, h]
  cases head with
  | tag number => exact absurd rfl (htag number)
  | array length => rfl
  | map length => rfl
  | _ => cases hcontainer

theorem readValue_tag {input : Bytes} {number : UInt64}
    (h : readHead input = some (.tag number, rest)) (hnumber : ¬ (number = 2 ∨ number = 3))
    (depth : Nat) :
    readValue (depth + 1) input = readContainer (readValue depth) (.tag number) rest := by
  simp only [readValue, h, readBignum?, if_neg hnumber]

private theorem readAtom_bytes (length : Option Nat) (input : Bytes) :
    readAtom (.bytes length) input =
      (readString false length input).map fun (pieces, rest) => (.bytes pieces.flatten, rest) := rfl

private theorem readAtom_text (length : Option Nat) (input : Bytes) :
    readAtom (.text length) input = do
      let (pieces, rest) ← readString true length input
      let characters ← joinTexts? pieces
      return (.text characters, rest) := rfl

theorem textOf?_textOctets (characters : String) :
    textOf? (textOctets characters) = some characters := by
  have hoctets : ByteArray.mk (textOctets characters).toArray = characters.toByteArray := by
    rw [textOctets, Array.toArray_toList, String.toUTF8_eq_toByteArray]
  rw [textOf?, hoctets, String.fromUTF8?, dif_pos characters.isValidUTF8]
  rfl

theorem joinTexts?_singleton (characters : String) :
    joinTexts? [textOctets characters] = some characters := by
  rw [joinTexts?, joinTexts?, textOf?_textOctets]
  exact congrArg some String.append_empty

/-- Items that are read back one by one are read back in a row. -/
theorem readMany_flatMap {α : Type} {one : Reader α} {write : α → Bytes} {items : List α}
    (h : ∀ item ∈ items, ∀ rest, one (write item ++ rest) = some (item, rest)) (rest : Bytes) :
    readMany one items.length (items.flatMap write ++ rest) = some (items, rest) := by
  induction items with
  | nil => rfl
  | cons item items ih =>
    obtain ⟨hitem, hitems⟩ := List.forall_mem_cons.1 h
    simp only [List.length_cons, readMany, List.flatMap_cons, List.append_assoc, hitem, ih hitems,
      Option.bind_eq_bind, Option.bind_some, Option.pure_def]

namespace Value

theorem encodeItems_eq (items : List Value) : encodeItems items = items.flatMap encode := by
  induction items with
  | nil => rw [encodeItems, List.flatMap_nil]
  | cons item items ih => rw [encodeItems, ih, List.flatMap_cons]

theorem encodeEntries_eq (entries : List (Value × Value)) :
    encodeEntries entries = entries.flatMap fun entry => entry.1.encode ++ entry.2.encode := by
  induction entries with
  | nil => rw [encodeEntries, List.flatMap_nil]
  | cons entry entries ih => rw [encodeEntries, ih, List.flatMap_cons, List.append_assoc]

/-- Values that are read back when `depth` containers may be nested. -/
inductive Plain : Nat → Value → Prop
  | unsigned {depth : Nat} (n : UInt64) : Plain depth (.unsigned n)
  | negative {depth : Nat} (n : UInt64) : Plain depth (.negative n)
  | bytes {depth : Nat} {octets : Bytes} (h : octets.length < UInt64.size) :
      Plain depth (.bytes octets)
  | text {depth : Nat} {characters : String} (h : (textOctets characters).length < UInt64.size) :
      Plain depth (.text characters)
  | bool {depth : Nat} (b : Bool) : Plain depth (.bool b)
  | null {depth : Nat} : Plain depth .null
  /-- A value with a tag that is not for integers. -/
  | tag {depth : Nat} {number : UInt64} {content : Value} (hnumber : ¬ (number = 2 ∨ number = 3))
      (hcontent : Plain depth content) : Plain (depth + 1) (.tag number content)
  | array {depth : Nat} {items : List Value} (hlength : items.length < UInt64.size)
      (hitems : ∀ item ∈ items, Plain depth item) : Plain (depth + 1) (.array items)
  | map {depth : Nat} {entries : List (Value × Value)} (hlength : entries.length < UInt64.size)
      (hkeys : ∀ entry ∈ entries, Plain depth entry.1)
      (hvalues : ∀ entry ∈ entries, Plain depth entry.2) : Plain (depth + 1) (.map entries)

/-- **A value is read back**, and what follows it is left. -/
theorem Plain.readValue_encode {depth : Nat} {value : Value} (h : Plain depth value)
    (rest : Bytes) : readValue depth (value.encode ++ rest) = some (value, rest) := by
  induction h generalizing rest with
  | unsigned n =>
    obtain ⟨width, hhead⟩ := readHead_head .unsigned n.toNat_lt_size rest
    rw [encode, readValue_atom hhead rfl, UInt64.ofNat_toNat]
    rfl
  | negative n =>
    obtain ⟨width, hhead⟩ := readHead_head .negative n.toNat_lt_size rest
    rw [encode, readValue_atom hhead rfl, UInt64.ofNat_toNat]
    rfl
  | @bytes _ octets hoctets =>
    obtain ⟨width, hhead⟩ := readHead_head .bytes hoctets (octets ++ rest)
    rw [encode, List.append_assoc, readValue_atom hhead rfl]
    simp only [readAtom_bytes, readString, readOctets_append rfl, Option.map_some,
      List.flatten_singleton]
  | @text _ characters hcharacters =>
    obtain ⟨width, hhead⟩ := readHead_head .text hcharacters (textOctets characters ++ rest)
    rw [encode, List.append_assoc, readValue_atom hhead rfl]
    simp only [readAtom_text, readString, readOctets_append rfl, Option.map_some,
      Option.bind_eq_bind, Option.bind_some, joinTexts?_singleton, Option.pure_def]
  | bool b =>
    have hhead : readHead ((Value.bool b).encode ++ rest) =
        some (.simple (if b then 21 else 20), rest) := by
      cases b <;> rfl
    rw [readValue_atom hhead rfl]
    cases b <;> rfl
  | null => exact @readValue_atom _ _ (.simple 22) rfl rfl _
  | @tag _ number content hnumber _ ih =>
    obtain ⟨width, hhead⟩ := readHead_head .tag number.toNat_lt_size (content.encode ++ rest)
    rw [Head.of?, UInt64.ofNat_toNat] at hhead
    rw [encode, List.append_assoc, readValue_tag hhead hnumber, readContainer, ih]
    rfl
  | @array _ items hlength _ ih =>
    obtain ⟨width, hhead⟩ := readHead_head .array hlength (encodeItems items ++ rest)
    rw [encode, List.append_assoc, readValue_container hhead rfl (by rintro _ ⟨⟩), encodeItems_eq]
    simp only [readContainer, readItems, readMany_flatMap ih, Option.map_some]
  | @map depth entries hlength _ _ ihkeys ihvalues =>
    have hentries (entry : Value × Value) (hmem : entry ∈ entries) (rest : Bytes) :
        readEntry (readValue depth) (entry.1.encode ++ entry.2.encode ++ rest) =
          some (entry, rest) := by
      simp only [readEntry, List.append_assoc, ihkeys entry hmem, ihvalues entry hmem,
        Option.bind_eq_bind, Option.bind_some, Option.pure_def]
    obtain ⟨width, hhead⟩ := readHead_head .map hlength (encodeEntries entries ++ rest)
    rw [encode, List.append_assoc, readValue_container hhead rfl (by rintro _ ⟨⟩),
      encodeEntries_eq]
    simp only [readContainer, readItems, readMany_flatMap hentries, Option.map_some]

theorem Plain.decode?_encode {value : Value} (h : Plain maxDepth value) :
    decode? value.encode = some value := by
  rw [decode?, ← List.append_nil value.encode, h.readValue_encode, Option.map_some]

theorem Plain.ofInt {depth : Nat} (n : Int) : Plain depth (Value.ofInt n) := by
  rw [Value.ofInt]
  split_ifs
  · exact .unsigned _
  · exact .negative _

theorem toInt?_ofInt {n : Int} (hlow : -UInt64.size ≤ n) (hhigh : n < UInt64.size) :
    (ofInt n).toInt? = some n := by
  rw [ofInt]
  split_ifs with hsign
  · rw [toInt?, UInt64.toNat_ofNat_of_lt' (by omega), Int.toNat_of_nonneg hsign]
  · rw [toInt?, UInt64.toNat_ofNat_of_lt' (by omega), Int.toNat_of_nonneg (by omega)]
    congr 1
    omega

end Value

/-! ### Maps with integer keys -/

namespace IntMap

variable {depth : Nat} {m : IntMap}

/-- Maps whose values are read back when `depth` containers may be nested in the map. -/
def Plain (depth : Nat) (m : IntMap) : Prop := ∀ entry ∈ m.entries, Value.Plain depth entry.2

namespace Plain

theorem empty : IntMap.empty.Plain depth := List.forall_mem_nil _

variable (hm : m.Plain depth) (key : Int64)

include hm

theorem insert {value : Value} (h : value.Plain depth) : (m.insert key value).Plain depth :=
  List.forall_mem_append.2 ⟨hm, List.forall_mem_singleton.2 h⟩

theorem insertInt (n : Int64) : (m.insertInt key n).Plain depth := hm.insert key (.ofInt n.toInt)

theorem insertBytes {octets : Bytes} (h : octets.length < UInt64.size) :
    (m.insertBytes key octets).Plain depth := hm.insert key (.bytes h)

theorem insertText? {text : Option String}
    (h : ∀ characters ∈ text, (textOctets characters).length < UInt64.size) :
    (m.insertText? key text).Plain depth := by
  cases text with
  | none => exact hm
  | some characters => exact hm.insert key (.text (h characters rfl))

theorem toValue (hlength : m.entries.length < UInt64.size) : m.toValue.Plain (depth + 1) :=
  .map (by rwa [List.length_map]) (List.forall_mem_map.2 fun _ _ => .ofInt _)
    (List.forall_mem_map.2 hm)

end Plain

end IntMap

end Ctap.Cbor
