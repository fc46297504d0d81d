import Ctap.Crypto.Suite
import Mathlib.Tactic.Common

/-!
# AES is invertible

Every part of a round is undone by a part of the inverse cipher: the substitution because inversion
in the field undoes itself, the mixing of columns because four mixings are none, the shifting of
rows and the addition of keys because of their form. Rounds are undone one after the other. Only the
lengths of the round keys matter, and a key of 16 or 32 octets gives round keys of a block each.

## Main definitions

* `Aes.mulNat`, `Aes.invNat`: the field operations on numbers.
* `Aes.KeySchedule.Whole`: round keys of a block each.

## Main results

* `Aes.subInv_sub`, `Aes.unmixColumn_mixColumn`: substitution and mixing are undone.
* `Aes.decryptBlock_encryptBlock`: decryption undoes encryption.
* `Aes.KeySchedule.whole_ofKey`: the round keys of a key are whole.
-/

namespace Ctap.Crypto.Aes

/-! ### Substitution -/

/-- Multiplication by `x`, on numbers below 256. -/
def doubleNat (a : Nat) : Nat := if a < 128 then 2 * a else (2 * a) ^^^ 0x11B

/-- Multiplication in the field, on numbers below 256. -/
def mulNat : Nat → Nat → Nat → Nat → Nat
  | 0, _, _, acc => acc
  | n + 1, a, b, acc => mulNat n (doubleNat a) (b / 2) (if b % 2 = 0 then acc else acc ^^^ a)

/-- Inversion in the field, on numbers below 256. -/
def invNat (a : Nat) : Nat :=
  let mul a b := mulNat 8 a b 0
  let a2 := mul a a
  let a3 := mul a2 a
  let a6 := mul a3 a3
  let a12 := mul a6 a6
  let a15 := mul a12 a3
  let a30 := mul a15 a15
  let a60 := mul a30 a30
  let a120 := mul a60 a60
  let a126 := mul a120 a6
  let a127 := mul a126 a
  mul a127 a127

theorem toNat_double (a : UInt8) : (double a).toNat = doubleNat a.toNat := by
  obtain ⟨a⟩ := a
  revert a
  decide +kernel

private theorem toNat_mul_go (n : Nat) (a b acc : UInt8) :
    (mul.go n a b acc).toNat = mulNat n a.toNat b.toNat acc.toNat := by
  induction n generalizing a b acc with
  | zero => rfl
  | succ n ih =>
    have hodd : b &&& 1 = 0 ↔ b.toNat % 2 = 0 := by
      rw [← UInt8.toNat_inj, UInt8.toNat_and]
      exact Iff.of_eq (congrArg (· = 0) (Nat.and_one_is_mod _))
    have hhalf : (b >>> 1).toNat = b.toNat / 2 := by simp [Nat.shiftRight_eq_div_pow]
    rw [mul.go, ih, mulNat, toNat_double, hhalf]
    by_cases h : b &&& 1 = 0
    · rw [if_pos h, if_pos (hodd.1 h)]
    · rw [if_neg h, if_neg (hodd.not.1 h), UInt8.toNat_xor]

theorem toNat_mul (a b : UInt8) : (mul a b).toNat = mulNat 8 a.toNat b.toNat 0 :=
  toNat_mul_go 8 a b 0

theorem toNat_inv (a : UInt8) : (inv a).toNat = invNat a.toNat := by
  simp only [inv, invNat, toNat_mul]

-- Numbers are checked here and not octets, because the kernel computes with them much faster.
private theorem invNat_invNat : ∀ a : Fin 256, invNat (invNat a) = a := by decide +kernel

theorem inv_inv (a : UInt8) : inv (inv a) = a := by
  rw [← UInt8.toNat_inj, toNat_inv, toNat_inv]
  exact invNat_invNat ⟨a.toNat, a.toNat_lt⟩

/-- The affine map of the substitution is undone by another one. -/
theorem rotl_substitute (a : UInt8) :
    rotl (substitute a) 1 ^^^ rotl (substitute a) 3 ^^^ rotl (substitute a) 6 ^^^ 0x05 = inv a := by
  rw [substitute]
  generalize inv a = b
  obtain ⟨b⟩ := b
  revert b
  decide +kernel

theorem substitute_injective : Function.Injective substitute := by
  intro a b h
  have hinv : inv a = inv b := by rw [← rotl_substitute, h, rotl_substitute]
  rw [← inv_inv a, hinv, inv_inv]

theorem sub_eq (b : UInt8) : sub b = substitute b := by
  simp [sub, substitutionTable, Array.getD_eq_getD_getElem?, b.toNat_lt]

private def entered (count : Nat) : Array UInt8 :=
  (List.range count).foldl
    (fun table i => table.setIfInBounds (substitutionTable.getD i 0).toNat (UInt8.ofNat i))
    (Array.replicate 256 0)

private theorem inverseTable_eq : inverseTable = entered 256 := by
  rw [inverseTable, entered, ← Array.foldl_toList, Array.toList_range]

private theorem entered_succ {count : Nat} (h : count < 256) : entered (count + 1) =
    (entered count).setIfInBounds (substitute (UInt8.ofNat count)).toNat (UInt8.ofNat count) := by
  have hcount : (UInt8.ofNat count).toNat = count := UInt8.toNat_ofNat_of_lt' h
  have hsub : substitutionTable.getD count 0 = substitute (UInt8.ofNat count) := by
    rw [← sub_eq, sub, hcount]
  rw [← hsub, entered, List.range_succ, List.foldl_append]
  rfl

private theorem size_entered {count : Nat} (h : count ≤ 256) : (entered count).size = 256 := by
  induction count with
  | zero => exact Array.size_replicate
  | succ count ih => rw [entered_succ h, Array.size_setIfInBounds, ih (Nat.le_of_succ_le h)]

private theorem getElem?_entered {count : Nat} (h : count ≤ 256) {b : UInt8}
    (hb : b.toNat < count) : (entered count)[(substitute b).toNat]? = some b := by
  induction count with
  | zero => cases hb
  | succ count ih =>
    rw [entered_succ h, Array.getElem?_setIfInBounds]
    by_cases hlast : b = UInt8.ofNat count
    · have hbound : (substitute b).toNat < (entered count).size := by
        rw [size_entered (Nat.le_of_succ_le h)]
        exact UInt8.toNat_lt _
      rw [← hlast, if_pos rfl, if_pos hbound]
    · -- The entry of another octet is left alone.
      have hother : (substitute (UInt8.ofNat count)).toNat ≠ (substitute b).toNat := by
        intro heq
        exact hlast (substitute_injective (UInt8.toNat_inj.1 heq)).symm
      have hless : b.toNat < count := by
        refine Nat.lt_of_le_of_ne (Nat.le_of_lt_succ hb) fun heq => hlast ?_
        rw [← heq, UInt8.ofNat_toNat]
      rw [if_neg hother, ih (Nat.le_of_succ_le h) hless]

/-- **Inverse substitution undoes substitution.** -/
theorem subInv_sub (b : UInt8) : subInv (sub b) = b := by
  rw [sub_eq, subInv, inverseTable_eq, Array.getD_eq_getD_getElem?,
    getElem?_entered (Nat.le_refl 256) b.toNat_lt, Option.getD_some]

/-! ### Rows -/

@[simp] theorem length_rearrange (positions : List Nat) (block : Bytes) :
    (rearrange positions block).length = positions.length := List.length_map _

private theorem rearrange_eq (positions : List Nat) (block : Bytes) :
    rearrange positions block = positions.map fun i => block[i]?.getD 0 := by
  simp [rearrange, Array.getD_eq_getD_getElem?]

theorem rearrange_range (block : Bytes) : rearrange (List.range block.length) block = block := by
  rw [rearrange_eq]
  apply List.ext_getElem
  · rw [List.length_map, List.length_range]
  · intro i _ hi
    simp [hi]

theorem rearrange_rearrange {positions sources : List Nat}
    (h : ∀ i ∈ positions, i < sources.length) (block : Bytes) :
    rearrange positions (rearrange sources block) =
      rearrange (positions.map fun i => sources[i]?.getD 0) block := by
  simp only [rearrange_eq, List.map_map]
  apply List.map_congr_left
  intro i hi
  simp [h i hi]

theorem rearrange_unshift {block : Bytes} (h : block.length = blockSize) :
    rearrange unshiftSource (rearrange shiftSource block) = block := by
  have hpositions : unshiftSource.map (fun i => shiftSource[i]?.getD 0) = List.range blockSize := by
    decide
  rw [rearrange_rearrange (by decide), hpositions, ← h, rearrange_range]

/-! ### Columns -/

private theorem xor_left_cancel (a b : UInt8) : a ^^^ (a ^^^ b) = b := by
  rw [← UInt8.xor_assoc, UInt8.xor_self, UInt8.zero_xor]

private theorem xor_left_comm (a b c : UInt8) : a ^^^ (b ^^^ c) = b ^^^ (a ^^^ c) := by
  rw [← UInt8.xor_assoc, UInt8.xor_comm a, UInt8.xor_assoc]

private theorem xor_and (a b c : UInt8) : (a ^^^ b) &&& c = (a &&& c) ^^^ (b &&& c) := by
  apply UInt8.toBitVec_inj.1
  apply BitVec.eq_of_getLsbD_eq
  intro i hi
  simp only [UInt8.toBitVec_and, UInt8.toBitVec_xor, BitVec.getLsbD_and, BitVec.getLsbD_xor,
    Bool.and_xor_distrib_right]

private theorem highBit_eq (a : UInt8) : a &&& 0x80 = 0 ∨ a &&& 0x80 = 0x80 := by
  obtain ⟨a⟩ := a
  revert a
  decide +kernel

theorem double_xor (a b : UInt8) : double (a ^^^ b) = double a ^^^ double b := by
  rw [double, double, double, xor_and, UInt8.shiftLeft_xor]
  rcases highBit_eq a with ha | ha <;> rcases highBit_eq b with hb | hb <;>
    simp [ha, hb, UInt8.xor_assoc, xor_left_comm, UInt8.xor_comm]

/-- An octet of a mixed column, from the sum of the column, the octet and the next one. -/
def mixOctet (sum a b : UInt8) : UInt8 := a ^^^ sum ^^^ double (a ^^^ b)

/-- An octet of a column that was mixed twice, from the octet and the one after the next. -/
def mixTwice (a c : UInt8) : UInt8 := a ^^^ double (double (a ^^^ c))

theorem mixColumn_eq {a b c d sum : UInt8} (h : a ^^^ b ^^^ c ^^^ d = sum) : mixColumn a b c d =
    [mixOctet sum a b, mixOctet sum b c, mixOctet sum c d, mixOctet sum d a] := by
  rw [← h]
  rfl

theorem unmixColumn_eq (a b c d : UInt8) : unmixColumn a b c d =
    mixColumn (mixTwice a c) (mixTwice b d) (mixTwice c a) (mixTwice d b) := by
  simp only [unmixColumn, mixTwice, UInt8.xor_comm]

theorem mixOctet_sum (sum a b c d : UInt8) :
    mixOctet sum a b ^^^ mixOctet sum b c ^^^ mixOctet sum c d ^^^ mixOctet sum d a =
      a ^^^ b ^^^ c ^^^ d := by
  simp only [mixOctet, double_xor, UInt8.xor_assoc, xor_left_comm, UInt8.xor_comm, xor_left_cancel,
    UInt8.xor_self, UInt8.xor_zero]

theorem mixOctet_mixOctet (sum a b c : UInt8) :
    mixOctet sum (mixOctet sum a b) (mixOctet sum b c) = mixTwice a c := by
  simp only [mixOctet, mixTwice, double_xor, UInt8.xor_assoc, xor_left_comm, UInt8.xor_comm,
    xor_left_cancel]

theorem mixTwice_mixOctet (sum a b c d : UInt8) :
    mixTwice (mixOctet sum a b) (mixOctet sum c d) =
      mixOctet sum (mixTwice a c) (mixTwice b d) := by
  rw [← mixOctet_mixOctet sum _ (mixOctet sum b c), mixOctet_mixOctet sum a b c,
    mixOctet_mixOctet sum b c d]

theorem mixTwice_sum (a b c d : UInt8) :
    mixTwice a c ^^^ mixTwice b d ^^^ mixTwice c a ^^^ mixTwice d b = a ^^^ b ^^^ c ^^^ d := by
  simp only [mixTwice, double_xor, UInt8.xor_assoc, xor_left_comm, UInt8.xor_comm, xor_left_cancel,
    UInt8.xor_self, UInt8.xor_zero]

theorem mixTwice_mixTwice (a c : UInt8) : mixTwice (mixTwice a c) (mixTwice c a) = a := by
  simp only [mixTwice, double_xor, xor_left_comm, UInt8.xor_comm, UInt8.xor_self, UInt8.xor_zero]

/-- **Inverse mixing undoes mixing**: it mixes three times, and four times is none. -/
theorem unmixColumn_mixColumn (a b c d : UInt8) (rest : Bytes) :
    mapColumns unmixColumn (mixColumn a b c d ++ rest) =
      a :: b :: c :: d :: mapColumns unmixColumn rest := by
  generalize hsum : a ^^^ b ^^^ c ^^^ d = sum
  have hsum' := mixOctet_sum sum (mixTwice a c) (mixTwice b d) (mixTwice c a) (mixTwice d b)
  rw [mixTwice_sum, hsum] at hsum'
  rw [mixColumn_eq hsum]
  simp only [List.cons_append, List.nil_append, mapColumns, unmixColumn_eq, mixTwice_mixOctet,
    mixColumn_eq hsum', mixOctet_mixOctet, mixTwice_mixTwice]

theorem mapColumns_unmix {block : Bytes} (h : 4 ∣ block.length) :
    mapColumns unmixColumn (mapColumns mixColumn block) = block ∧
      (mapColumns mixColumn block).length = block.length := by
  fun_induction mapColumns mixColumn block with
  | case1 a b c d rest ih =>
    have hless : 4 ∣ rest.length := by
      simp only [List.length_cons] at h
      omega
    obtain ⟨hrest, hlength⟩ := ih hless
    refine ⟨by rw [unmixColumn_mixColumn, hrest], ?_⟩
    rw [List.length_append, hlength]
    exact Nat.add_comm 4 rest.length
  | case2 block hshort =>
    rcases block with _ | ⟨a, _ | ⟨b, _ | ⟨c, _ | ⟨d, rest⟩⟩⟩⟩
    · exact ⟨rfl, rfl⟩
    · simp at h
    · simp at h
    · simp at h
    · exact absurd rfl (hshort a b c d rest)

/-! ### Rounds -/

/-- A round but the last. -/
def round (state key : Bytes) : Bytes :=
  Bytes.xor (mapColumns mixColumn (rearrange shiftSource (state.map sub))) key

/-- The inverse of a round but the last. -/
def unround (key state : Bytes) : Bytes :=
  (rearrange unshiftSource (mapColumns unmixColumn (Bytes.xor state key))).map subInv

private theorem map_subInv_sub (state : Bytes) : (state.map sub).map subInv = state := by
  induction state with
  | nil => rfl
  | cons b state ih => rw [List.map_cons, List.map_cons, subInv_sub, ih]

theorem unshift_shift {state : Bytes} (h : state.length = blockSize) :
    (rearrange unshiftSource (rearrange shiftSource (state.map sub))).map subInv = state := by
  rw [rearrange_unshift (by rwa [List.length_map]), map_subInv_sub]

private theorem length_unshift (state : Bytes) :
    ((rearrange unshiftSource state).map subInv).length = blockSize := by
  rw [List.length_map, length_rearrange]
  rfl

private theorem columns (state : Bytes) :
    mapColumns unmixColumn (mapColumns mixColumn (rearrange shiftSource state)) =
        rearrange shiftSource state ∧
      (mapColumns mixColumn (rearrange shiftSource state)).length = blockSize := by
  have hcolumns : 4 ∣ (rearrange shiftSource state).length := by
    rw [length_rearrange]
    exact ⟨4, rfl⟩
  obtain ⟨hunmix, hlength⟩ := mapColumns_unmix hcolumns
  rw [hlength, length_rearrange]
  exact ⟨hunmix, rfl⟩

theorem length_round {state key : Bytes} (hkey : key.length = blockSize) :
    (round state key).length = blockSize := by
  rw [round, Bytes.length_xor, (columns _).2, hkey, Nat.min_self]

theorem unround_round {state key : Bytes} (hstate : state.length = blockSize)
    (hkey : key.length = blockSize) : unround key (round state key) = state := by
  obtain ⟨hunmix, hlength⟩ := columns (state.map sub)
  rw [unround, round, Bytes.xor_xor_cancel (Nat.le_of_eq (by rw [hlength, hkey])), hunmix,
    unshift_shift hstate]

/-- Rounds are undone one after the other. -/
theorem unround_rounds {keys : List Bytes} (hkeys : ∀ key ∈ keys, key.length = blockSize)
    {state : Bytes} (hstate : state.length = blockSize) :
    (keys.foldl round state).length = blockSize ∧
      keys.foldr unround (keys.foldl round state) = state := by
  induction keys generalizing state with
  | nil => exact ⟨hstate, rfl⟩
  | cons key keys ih =>
    have hkey := hkeys key (List.mem_cons_self ..)
    obtain ⟨hlength, hundone⟩ :=
      ih (fun k hk => hkeys k (List.mem_cons_of_mem _ hk)) (length_round hkey)
    rw [List.foldl_cons, List.foldr_cons, hundone, unround_round hstate hkey]
    exact ⟨hlength, rfl⟩

/-! ### The cipher -/

/-- Round keys of a block each. -/
structure KeySchedule.Whole (k : KeySchedule) : Prop where
  first : k.first.length = blockSize
  middle : ∀ key ∈ k.middle, key.length = blockSize
  last : k.last.length = blockSize

variable {k : KeySchedule} {block : Bytes}

private theorem encryptBlock_eq (k : KeySchedule) (block : Bytes) : encryptBlock k block =
    Bytes.xor (rearrange shiftSource ((k.middle.foldl round (Bytes.xor block k.first)).map sub))
      k.last := rfl

private theorem decryptBlock_eq (k : KeySchedule) (block : Bytes) : decryptBlock k block =
    Bytes.xor (k.middle.foldr unround
      ((rearrange unshiftSource (Bytes.xor block k.last)).map subInv)) k.first := rfl

theorem length_encryptBlock (hk : k.Whole) (block : Bytes) :
    (encryptBlock k block).length = blockSize := by
  rw [encryptBlock_eq, Bytes.length_xor, length_rearrange, hk.last]
  rfl

theorem length_decryptBlock (hk : k.Whole) (block : Bytes) :
    (decryptBlock k block).length = blockSize := by
  have hunmixed : (k.middle.foldr unround
      ((rearrange unshiftSource (Bytes.xor block k.last)).map subInv)).length = blockSize := by
    rcases k.middle with _ | ⟨key, keys⟩
    · exact length_unshift _
    · exact length_unshift _
  rw [decryptBlock_eq, Bytes.length_xor, hunmixed, hk.first, Nat.min_self]

/-- **Decryption undoes encryption.** -/
theorem decryptBlock_encryptBlock (hk : k.Whole) (hblock : block.length = blockSize) :
    decryptBlock k (encryptBlock k block) = block := by
  have hfits : block.length ≤ k.first.length := Nat.le_of_eq (by rw [hblock, hk.first])
  have hstarted : (Bytes.xor block k.first).length = blockSize := by
    rw [Bytes.length_xor, hblock, hk.first, Nat.min_self]
  obtain ⟨hlength, hundone⟩ := unround_rounds hk.middle hstarted
  have hlast : (rearrange shiftSource ((k.middle.foldl round (Bytes.xor block k.first)).map
      sub)).length ≤ k.last.length := by
    rw [length_rearrange, hk.last]
    exact Nat.le_refl _
  rw [decryptBlock_eq, encryptBlock_eq, Bytes.xor_xor_cancel hlast, unshift_shift hlength, hundone,
    Bytes.xor_xor_cancel hfits]

/-! ### Round keys -/

private theorem expandWords_succ {size : Nat} (count index : Nat) (constant : UInt8)
    {ws : List Bytes} (hsize : 0 < size) (hlength : size ≤ ws.length)
    (hws : ∀ w ∈ ws, w.length = 4) : ∃ word constant',
      expandWords size (count + 1) index constant ws =
        expandWords size count (index + 1) constant' (word :: ws) ∧ word.length = 4 := by
  have hprevious : (ws.headD []).length = 4 := by
    rcases ws with _ | ⟨w, ws⟩
    · exact absurd hsize (Nat.not_lt.2 hlength)
    · exact hws w (List.mem_cons_self ..)
  have hbase : (ws.getD (size - 1) []).length = 4 := by
    have hless : size - 1 < ws.length := by omega
    rw [List.getD_eq_getElem?_getD, List.getElem?_eq_getElem hless]
    exact hws _ (List.getElem_mem hless)
  rw [expandWords]
  by_cases hturn : index % size = 0
  · rw [if_pos hturn]
    refine ⟨_, _, rfl, ?_⟩
    simp only [Bytes.length_xor, List.length_map, List.length_append, List.length_drop,
      List.length_take, List.length_cons, List.length_nil, hbase, hprevious]
    rfl
  · rw [if_neg hturn]
    by_cases hlong : 6 < size ∧ index % size = 4
    · rw [if_pos hlong]
      refine ⟨_, _, rfl, ?_⟩
      rw [Bytes.length_xor, List.length_map, hbase, hprevious]
      rfl
    · rw [if_neg hlong]
      refine ⟨_, _, rfl, ?_⟩
      rw [Bytes.length_xor, hbase, hprevious]
      rfl

private theorem expandWords_words {size count index : Nat} {constant : UInt8} {ws : List Bytes}
    (hsize : 0 < size) (hlength : size ≤ ws.length) (hws : ∀ w ∈ ws, w.length = 4) :
    (∀ w ∈ expandWords size count index constant ws, w.length = 4) ∧
      (expandWords size count index constant ws).length = count + ws.length := by
  induction count generalizing index constant ws with
  | zero => exact ⟨hws, (Nat.zero_add _).symm⟩
  | succ count ih =>
    obtain ⟨word, constant', hnext, hword⟩ :=
      expandWords_succ count index constant hsize hlength hws
    obtain ⟨hall, hcount⟩ := @ih (index + 1) constant' (word :: ws)
      (Nat.le_succ_of_le hlength) (List.forall_mem_cons.2 ⟨hword, hws⟩)
    rw [hnext, hcount, List.length_cons]
    exact ⟨hall, by omega⟩

private theorem chunks_words {words : List Bytes} (hwords : ∀ w ∈ words, w.length = 4)
    {count : Nat} (hcount : words.length = 4 * (count + 1)) :
    (∀ key ∈ Bytes.chunks blockSize words.flatten, key.length = blockSize) ∧
      Bytes.chunks blockSize words.flatten ≠ [] := by
  have hlength : words.flatten.length = blockSize * (count + 1) := by
    rw [List.length_flatten, List.map_congr_left hwords, List.map_const', List.sum_replicate_nat,
      hcount, blockSize]
    omega
  have hne : words.flatten ≠ [] := by
    intro hnil
    rw [hnil] at hlength
    simp [blockSize] at hlength
  refine ⟨fun key => Bytes.length_of_mem_chunks (by decide) ⟨_, hlength⟩, ?_⟩
  rw [Bytes.chunks_eq_cons (by decide) hne]
  exact List.cons_ne_nil _ _

/-- **The round keys of a key are whole.** -/
theorem KeySchedule.whole_ofKey {key : Bytes} (hkey : key.length = 16 ∨ key.length = 32) :
    (KeySchedule.ofKey key).Whole := by
  have hcut : (Bytes.chunks 4 key).length = key.length / 4 := by
    rw [Bytes.length_chunks]
    omega
  have hpieces : ∀ w ∈ (Bytes.chunks 4 key).reverse, w.length = 4 := by
    intro w hw
    exact Bytes.length_of_mem_chunks (by decide) (by omega) (List.mem_reverse.1 hw)
  obtain ⟨hwords, hcount⟩ := @expandWords_words (key.length / 4)
    (4 * (key.length / 4 + 7) - key.length / 4) (key.length / 4) 1 _ (by omega)
    (Nat.le_of_eq (by rw [List.length_reverse, hcut])) hpieces
  rw [List.length_reverse, hcut] at hcount
  have htotal : (expandWords (key.length / 4) (4 * (key.length / 4 + 7) - key.length / 4)
      (key.length / 4) 1 (Bytes.chunks 4 key).reverse).reverse.length =
        4 * (key.length / 4 + 6 + 1) := by
    rw [List.length_reverse, hcount]
    omega
  obtain ⟨hkeys, hne⟩ := chunks_words (fun w hw => hwords w (List.mem_reverse.1 hw)) htotal
  rw [KeySchedule.ofKey]
  generalize Bytes.chunks blockSize _ = keys at hkeys hne
  obtain ⟨first, rest, rfl⟩ := List.exists_cons_of_ne_nil hne
  refine ⟨hkeys first (List.mem_cons_self ..), ?_, ?_⟩
  · intro k hk
    exact hkeys k (List.mem_cons_of_mem _ (List.dropLast_subset rest hk))
  · rw [List.getLastD_eq_getLast?, List.getLast?_eq_some_getLast hne]
    exact hkeys _ (List.getLast_mem hne)

end Ctap.Crypto.Aes
