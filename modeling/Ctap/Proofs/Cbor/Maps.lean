import Ctap.Proofs.Cbor.RoundTrip

/-!
# Maps that are built and read

A map is built by inserts, one after the other. Keys are any integers of 64 bits, in any order, and
may repeat; what is put in may be a map that is built in the same way. The octets of a map, with
whatever follows them, and its value are both read as the very map that was built, and a look-up
finds what was put in first under its key.

## Main definitions

* `Content`: what is put into a map.
* `IntMap.build`: the map that inserts build.
* `Content.Fits`: the contents that can be written and read.
* `firstOf`: what was put in first under a key.

## Main results

* `IntMap.entries_build`: the entries of a map that is built.
* `IntMap.ofValue_toValue`, `Content.Fits.plain`: its value and its octets.
* `IntMap.built_is_read`: reading, and look-up in what was read.
-/

namespace Ctap.Cbor

theorem Value.toInt?_ofInt_toInt (n : Int64) : (ofInt n.toInt).toInt? = some n.toInt := by
  have hlow := n.le_toInt
  have hhigh := n.toInt_lt
  refine toInt?_ofInt ?_ ?_ <;> simp only [UInt64.size] <;> omega

/-- What is put into a map under a key. -/
inductive Content where
  | int (n : Int64)
  | unsigned (n : UInt64)
  | bytes (octets : Bytes)
  | text (characters : Option String)
  | map (inserts : List (Int64 × Content))

namespace IntMap

mutual

/-- Puts something into a map. -/
def put (m : IntMap) (key : Int64) : Content → IntMap
  | .int n => m.insertInt key n
  | .unsigned n => m.insert key (.unsigned n)
  | .bytes octets => m.insertBytes key octets
  | .text characters => m.insertText? key characters
  | .map inserts => m.insert key (putAll empty inserts).toValue

/-- Puts one thing after the other into a map. -/
def putAll (m : IntMap) : List (Int64 × Content) → IntMap
  | [] => m
  | insert :: rest => putAll (put m insert.1 insert.2) rest

end

/-- The map that inserts build. -/
def build (inserts : List (Int64 × Content)) : IntMap := empty.putAll inserts

end IntMap

namespace Content

/-- Contents that can be written and read when `depth` maps may be nested: the lengths fit their
heads, and maps are not nested deeper. -/
inductive Fits : Nat → Content → Prop
  | int {depth : Nat} (n : Int64) : Fits depth (.int n)
  | unsigned {depth : Nat} (n : UInt64) : Fits depth (.unsigned n)
  | bytes {depth : Nat} {octets : Bytes} (h : octets.length < UInt64.size) :
      Fits depth (.bytes octets)
  | text {depth : Nat} {text : Option String}
      (h : ∀ characters ∈ text, (textOctets characters).length < UInt64.size) :
      Fits depth (.text text)
  /-- A map whose contents can be written and read one level deeper. -/
  | map {depth : Nat} {inserts : List (Int64 × Content)} (hlength : inserts.length < UInt64.size)
      (h : ∀ insert ∈ inserts, Fits depth insert.2) : Fits (depth + 1) (.map inserts)

/-- Whether there is something to put in: only a text may be missing. -/
def isPresent : Content → Bool
  | .text none => false
  | _ => true

/-- The value that stands for what is put in. -/
def value? : Content → Option Value
  | .int n => some (.ofInt n.toInt)
  | .unsigned n => some (.unsigned n)
  | .bytes octets => some (.bytes octets)
  | .text characters => characters.map .text
  | .map inserts => some (IntMap.build inserts).toValue

/-- The integer that is put in. -/
def int? : Content → Option Int
  | .int n => some n.toInt
  | .unsigned n => some n.toNat
  | _ => none

variable {c : Content}

theorem isSome_value? (c : Content) : c.value?.isSome = c.isPresent := by
  rcases c with _ | _ | _ | (_ | _) | _ <;> rfl

theorem toInt?_value? (c : Content) : c.value?.bind Value.toInt? = c.int? := by
  cases c with
  | int n => exact Value.toInt?_ofInt_toInt n
  | text characters => cases characters <;> rfl
  | _ => rfl

theorem value?_eq_bytes {octets : Bytes} :
    c.value? = some (.bytes octets) ↔ c = .bytes octets := by
  cases c with
  | int n =>
    rw [value?, Value.ofInt]
    split_ifs <;> simp
  | text characters => cases characters <;> simp [value?]
  | _ => simp [value?, IntMap.toValue]

theorem value?_eq_map {entries : List (Value × Value)} : c.value? = some (.map entries) ↔
    ∃ nested, c = .map nested ∧ (IntMap.build nested).toValue = .map entries := by
  cases c with
  | int n =>
    rw [value?, Value.ofInt]
    split_ifs <;> simp
  | text characters => cases characters <;> simp [value?]
  | _ => simp [value?]

end Content

/-- What was put in first under a key; a text that was missing does not count. -/
def firstOf (inserts : List (Int64 × Content)) (key : Int64) : Option Content :=
  (inserts.find? fun insert => insert.1 == key && insert.2.isPresent).map (·.2)

namespace IntMap

/-! ### Look-up -/

section

variable {m : IntMap} {key : Int64}

theorem getInt_eq_ok {n : Int} :
    m.getInt key = .ok n ↔ (m.get? key).bind Value.toInt? = some n := by
  rw [getInt]
  cases m.get? key with
  | none => simp
  | some v =>
    cases hint : v.toInt? <;> simp [hint]

theorem getBytes_eq_ok {octets : Bytes} :
    m.getBytes key = .ok octets ↔ m.get? key = some (.bytes octets) := by
  rw [getBytes]
  cases m.get? key with
  | none => simp
  | some v => cases v <;> simp

theorem getMap_eq_ok {inner : IntMap} : m.getMap key = .ok inner ↔
    ∃ entries, m.get? key = some (.map entries) ∧ ofValue (.map entries) = .ok inner := by
  rw [getMap]
  cases m.get? key with
  | none => simp
  | some v => cases v <;> simp

end

/-! ### Maps that are built -/

variable {inserts : List (Int64 × Content)} {key : Int64}

theorem entries_put (m : IntMap) (key : Int64) (c : Content) :
    (m.put key c).entries = m.entries ++ (c.value?.map (key.toInt, ·)).toList := by
  rcases c with n | n | octets | (_ | characters) | inserts <;>
    simp [put, insertInt, insertBytes, insertText?, insert, Content.value?, build]

theorem entries_putAll (m : IntMap) (inserts : List (Int64 × Content)) :
    (m.putAll inserts).entries =
      m.entries ++ inserts.filterMap fun insert => insert.2.value?.map (insert.1.toInt, ·) := by
  induction inserts generalizing m with
  | nil => simp [putAll]
  | cons insert rest ih =>
    rw [putAll, ih, entries_put, List.filterMap_cons, List.append_assoc]
    cases insert.2.value? <;> rfl

theorem entries_build (inserts : List (Int64 × Content)) : (build inserts).entries =
    inserts.filterMap fun insert => insert.2.value?.map (insert.1.toInt, ·) := by
  rw [build, entries_putAll]
  rfl

/-- A map is the map of its value if its keys are the numbers of their values. -/
theorem ofValue_toValue {m : IntMap}
    (h : ∀ entry ∈ m.entries, (Value.ofInt entry.1).toInt? = some entry.1) :
    ofValue m.toValue = .ok m := by
  obtain ⟨entries⟩ := m
  have hentries : ofEntries (entries.map fun entry => (.ofInt entry.1, entry.2)) = .ok entries := by
    induction entries with
    | nil => rfl
    | cons entry entries ih =>
      obtain ⟨hkey, hrest⟩ := List.forall_mem_cons.1 h
      simp only [List.map_cons, ofEntries, hkey, ih hrest]
  simp only [toValue, ofValue, hentries]

theorem ofValue_build (inserts : List (Int64 × Content)) :
    ofValue (build inserts).toValue = .ok (build inserts) := by
  refine ofValue_toValue fun entry hentry => ?_
  rw [entries_build, List.mem_filterMap] at hentry
  obtain ⟨⟨key, c⟩, -, hentry⟩ := hentry
  obtain ⟨v, -, rfl⟩ := Option.map_eq_some_iff.1 hentry
  exact Value.toInt?_ofInt_toInt key

/-- The value that is found is that of what was put in first. -/
theorem get?_build (inserts : List (Int64 × Content)) (key : Int64) :
    (build inserts).get? key = (firstOf inserts key).bind Content.value? := by
  have hfound : (fun insert : Int64 × Content =>
      (insert.2.value?.map (insert.1.toInt, ·)).any fun entry => entry.1 == key.toInt) =
        fun insert => insert.1 == key && insert.2.isPresent := by
    funext insert
    rw [← insert.2.isSome_value?, Option.any_map]
    cases insert.2.value? with
    | none => simp
    | some v => simp [Bool.beq_eq_decide_eq, Int64.toInt_inj]
  rw [get?, entries_build, List.find?_filterMap, hfound, firstOf]
  cases inserts.find? fun insert => insert.1 == key && insert.2.isPresent with
  | none => rfl
  | some insert => simp [Option.map_map, Function.comp_def]

theorem getInt_build {n : Int} : (build inserts).getInt key = .ok n ↔
    (firstOf inserts key).bind Content.int? = some n := by
  rw [getInt_eq_ok, get?_build, Option.bind_assoc, funext Content.toInt?_value?]

theorem getBytes_build {octets : Bytes} : (build inserts).getBytes key = .ok octets ↔
    firstOf inserts key = some (.bytes octets) := by
  simp only [getBytes_eq_ok, get?_build, Option.bind_eq_some_iff, Content.value?_eq_bytes,
    exists_eq_right]

theorem getMap_build {inner : IntMap} : (build inserts).getMap key = .ok inner ↔
    ∃ nested, firstOf inserts key = some (.map nested) ∧ build nested = inner := by
  simp only [getMap_eq_ok, get?_build, Option.bind_eq_some_iff, Content.value?_eq_map]
  constructor
  · rintro ⟨entries, ⟨c, hfirst, nested, rfl, hentries⟩, hread⟩
    rw [← hentries, ofValue_build, Except.ok.injEq] at hread
    exact ⟨nested, hfirst, hread⟩
  · rintro ⟨nested, hfirst, rfl⟩
    exact ⟨_, ⟨_, hfirst, nested, rfl, rfl⟩, ofValue_build nested⟩

/-! ### Octets of a map that is built -/

theorem length_entries_build (inserts : List (Int64 × Content)) :
    (build inserts).entries.length ≤ inserts.length := by
  rw [entries_build]
  exact List.length_filterMap_le ..

end IntMap

/-- What fits is written so that it is read back. -/
theorem Content.Fits.plain {depth : Nat} {c : Content} (h : c.Fits depth) :
    ∀ v ∈ c.value?, v.Plain depth := by
  induction h with
  | int n =>
    rintro v ⟨⟩
    exact .ofInt _
  | unsigned n =>
    rintro v ⟨⟩
    exact .unsigned n
  | bytes h =>
    rintro v ⟨⟩
    exact .bytes h
  | text h =>
    intro v hv
    obtain ⟨characters, hcharacters, rfl⟩ := Option.map_eq_some_iff.1 hv
    exact .text (h characters hcharacters)
  | @map depth inserts hlength _ ih =>
    -- The entries of the map are values of the inserts, and there are no more of them.
    rintro v ⟨⟩
    refine IntMap.Plain.toValue (fun entry hentry => ?_)
      (Nat.lt_of_le_of_lt (IntMap.length_entries_build inserts) hlength)
    rw [IntMap.entries_build, List.mem_filterMap] at hentry
    obtain ⟨insert, hmem, hentry⟩ := hentry
    obtain ⟨v, hv, rfl⟩ := Option.map_eq_some_iff.1 hentry
    exact ih insert hmem v hv

namespace IntMap

/-- **A map that is built is read back.** Its value is read as the map itself, and so are its octets
with whatever follows them if it can be written. A look-up gives the value of what was put in first
under the key, if anything was. It is given as an integer, as an octet string or as a map if and
only if it was put in as such, and a map that is given is the one that was built. -/
theorem built_is_read :
    (∀ inserts, (Content.map inserts).Fits maxDepth → ∀ rest,
      ofBytes ((build inserts).encode ++ rest) = .ok (build inserts)) ∧
    ∀ inserts, ofValue (build inserts).toValue = .ok (build inserts) ∧ ∀ key,
      (build inserts).get? key = (firstOf inserts key).bind Content.value? ∧
      (∀ n, (build inserts).getInt key = .ok n ↔
        (firstOf inserts key).bind Content.int? = some n) ∧
      (∀ octets, (build inserts).getBytes key = .ok octets ↔
        firstOf inserts key = some (.bytes octets)) ∧
      ∀ inner, (build inserts).getMap key = .ok inner ↔
        ∃ nested, firstOf inserts key = some (.map nested) ∧ build nested = inner := by
  refine ⟨fun inserts h rest => ?_, fun inserts => ⟨ofValue_build inserts, fun key =>
    ⟨get?_build inserts key, fun _ => getInt_build, fun _ => getBytes_build,
      fun _ => getMap_build⟩⟩⟩
  have hread := (h.plain _ rfl).readValue_encode rest
  simp only [ofBytes, Value.decode?, encode, hread, Option.map_some, ofValue_build]

/-- Inserts with the least key there is, one key twice, a text that is missing, and a map with the
greatest integer there is. -/
def diverse : List (Int64 × Content) :=
  [(Int64.minValue, .int (-25)), (3, .bytes [0xAA]), (10, .text none), (3, .int 7),
    (1, .map [(-1, .unsigned 0xFFFFFFFFFFFFFFFF)])]

/-- They are read back from their octets, which are followed by others. -/
theorem built_is_read_diverse : (Content.map diverse).Fits maxDepth ∧
    ofBytes ((build diverse).encode ++ [0xFF]) = .ok (build diverse) ∧
    (build diverse).getInt Int64.minValue = .ok (-25) ∧
    (build diverse).getBytes 3 = .ok [0xAA] ∧ (build diverse).get? 10 = none ∧
    (build diverse).getMap 1 = .ok (build [(-1, .unsigned 0xFFFFFFFFFFFFFFFF)]) ∧
    (build [(-1, .unsigned 0xFFFFFFFFFFFFFFFF)]).getInt (-1) = .ok 0xFFFFFFFFFFFFFFFF := by
  have hfits : (Content.map diverse).Fits maxDepth := by
    refine .map (by decide) ?_
    simp only [diverse, List.forall_mem_cons, List.not_mem_nil, false_implies, implies_true,
      and_true]
    exact ⟨.int _, .bytes (by decide), .text (by simp), .int _,
      .map (by decide) (List.forall_mem_singleton.2 (.unsigned _))⟩
  obtain ⟨hread, hlaws⟩ := built_is_read
  obtain ⟨-, houter⟩ := hlaws diverse
  obtain ⟨-, hinner⟩ := hlaws [(-1, .unsigned 0xFFFFFFFFFFFFFFFF)]
  obtain ⟨-, hleast, -, -⟩ := houter Int64.minValue
  obtain ⟨-, -, htwice, -⟩ := houter 3
  obtain ⟨hmissing, -, -, -⟩ := houter 10
  obtain ⟨-, -, -, hnested⟩ := houter 1
  obtain ⟨-, hgreatest, -, -⟩ := hinner (-1)
  exact ⟨hfits, hread diverse hfits [0xFF], (hleast _).2 (by rfl), (htwice _).2 (by rfl), hmissing,
    (hnested _).2 ⟨_, by rfl, rfl⟩, (hgreatest _).2 (by rfl)⟩

end IntMap

end Ctap.Cbor
