/-!
# Octet strings

Payloads, packets and keys are lists of octets. Numbers are written big-endian. The laws beside the
definitions give the width of what is written, the value that is read back, and the way a string is
cut into pieces.
-/

namespace Ctap

/-- A string of octets. -/
abbrev Bytes : Type := List UInt8

namespace Bytes

/-- The `n` zero octets. -/
def zeros (n : Nat) : Bytes := List.replicate n 0

@[simp] theorem length_zeros (n : Nat) : (zeros n).length = n := List.length_replicate

/-- The string followed by zero octets up to length `n`; a string that is long enough stays as it
is. -/
def padTo (n : Nat) (b : Bytes) : Bytes := b ++ zeros (n - b.length)

theorem length_padTo (n : Nat) (b : Bytes) : (padTo n b).length = max n b.length := by
  simp only [padTo, List.length_append, length_zeros]
  omega

/-- The octets of two strings combined by exclusive or, as far as the shorter one reaches. -/
def xor (a b : Bytes) : Bytes := List.zipWith (· ^^^ ·) a b

@[simp] theorem length_xor (a b : Bytes) : (xor a b).length = min a.length b.length :=
  List.length_zipWith

theorem xor_xor_cancel {a b : Bytes} (h : a.length ≤ b.length) : xor (xor a b) b = a := by
  induction a generalizing b with
  | nil => rfl
  | cons x a ih =>
    rcases b with _ | ⟨y, b⟩
    · cases h
    · simp only [xor, List.zipWith_cons_cons, UInt8.xor_assoc, UInt8.xor_self, UInt8.xor_zero,
        List.cons.injEq, true_and]
      exact ih (Nat.le_of_succ_le_succ h)

theorem xor_zeros {a : Bytes} {n : Nat} (h : a.length ≤ n) : xor a (zeros n) = a := by
  induction a generalizing n with
  | nil => rfl
  | cons x a ih =>
    rcases n with _ | n
    · cases h
    · simp only [xor, zeros, List.replicate_succ, List.zipWith_cons_cons, UInt8.xor_zero,
        List.cons.injEq, true_and]
      exact ih (Nat.le_of_succ_le_succ h)

theorem xor_comm (a b : Bytes) : xor a b = xor b a := by
  rw [xor, List.zipWith_comm]
  simp only [UInt8.xor_comm]
  rfl

theorem xor_append {a b : Bytes} (h : a.length = b.length) (a' b' : Bytes) :
    xor (a ++ a') (b ++ b') = xor a b ++ xor a' b' := List.zipWith_append h

/-- Padding leaves the octets behind the string as they are. -/
theorem xor_padTo {a b : Bytes} {n : Nat} (ha : a.length ≤ n) (hb : b.length = n) :
    xor (padTo n a) b = xor a (b.take a.length) ++ b.drop a.length := by
  have hlength : a.length = (b.take a.length).length := by
    rw [List.length_take, hb, Nat.min_eq_left ha]
  have hrest : (b.drop a.length).length ≤ n - a.length :=
    Nat.le_of_eq (by rw [List.length_drop, hb])
  have hcut : xor (padTo n a) b =
      xor (a ++ zeros (n - a.length)) (b.take a.length ++ b.drop a.length) := by
    rw [padTo, List.take_append_drop]
  rw [hcut, xor_append hlength, xor_comm (zeros _), xor_zeros hrest]

/-- The two octets of a 16-bit word, high octet first. -/
def ofUInt16 (w : UInt16) : Bytes := [(w >>> 8).toUInt8, w.toUInt8]

/-- The 16-bit word with the given high and low octets. -/
def toUInt16 (hi lo : UInt8) : UInt16 := hi.toUInt16 <<< 8 ||| lo.toUInt16

@[simp] theorem length_ofUInt16 (w : UInt16) : (ofUInt16 w).length = 2 := rfl

@[simp] theorem toUInt16_ofUInt16 (w : UInt16) : toUInt16 (w >>> 8).toUInt8 w.toUInt8 = w := by
  apply UInt16.toBitVec_inj.mp
  apply BitVec.eq_of_getLsbD_eq
  intro i hi
  simp only [toUInt16, UInt16.toBitVec_or, UInt16.toBitVec_shiftLeft, UInt16.toBitVec_shiftRight,
    UInt8.toBitVec_toUInt16, UInt16.toBitVec_toUInt8, BitVec.getLsbD_or]
  simp [-BitVec.setWidth_setWidth]
  grind

/-- A 16-bit word that is put together from octets is written as these octets. -/
theorem ofUInt16_toUInt16 (hi lo : UInt8) : ofUInt16 (toUInt16 hi lo) = [hi, lo] := by
  simp only [ofUInt16, List.cons.injEq, and_true]
  refine ⟨?_, ?_⟩
  all_goals
    apply UInt8.toBitVec_inj.mp
    apply BitVec.eq_of_getLsbD_eq
    intro i hi
    simp [toUInt16, -BitVec.setWidth_setWidth]
  grind

/-- The number that a 16-bit word stands for, from its octets. -/
theorem toNat_toUInt16 (hi lo : UInt8) : (toUInt16 hi lo).toNat = hi.toNat * 256 + lo.toNat := by
  have hhi := hi.toNat_lt
  have hlo := lo.toNat_lt
  have hor : hi.toNat * 256 + lo.toNat = hi.toNat * 256 ||| lo.toNat := by
    have := Nat.shiftLeft_add_eq_or_of_lt hlo hi.toNat
    rwa [Nat.shiftLeft_eq] at this
  have hshift : (hi.toUInt16 <<< 8).toNat = hi.toNat * 256 := by
    rw [UInt16.toNat_shiftLeft, UInt8.toNat_toUInt16]
    change hi.toNat <<< 8 % 65536 = hi.toNat * 256
    rw [Nat.shiftLeft_eq, Nat.mod_eq_of_lt (by omega)]
  rw [toUInt16, UInt16.toNat_or, hshift, UInt8.toNat_toUInt16, hor]

/-- The four octets of a 32-bit word, high octet first. -/
def ofUInt32 (w : UInt32) : Bytes :=
  [(w >>> 24).toUInt8, (w >>> 16).toUInt8, (w >>> 8).toUInt8, w.toUInt8]

/-- The 32-bit word with the given octets, high octet first. -/
def toUInt32 (a b c d : UInt8) : UInt32 :=
  a.toUInt32 <<< 24 ||| b.toUInt32 <<< 16 ||| c.toUInt32 <<< 8 ||| d.toUInt32

@[simp] theorem length_ofUInt32 (w : UInt32) : (ofUInt32 w).length = 4 := rfl

@[simp] theorem toUInt32_ofUInt32 (w : UInt32) :
    toUInt32 (w >>> 24).toUInt8 (w >>> 16).toUInt8 (w >>> 8).toUInt8 w.toUInt8 = w := by
  apply UInt32.toBitVec_inj.mp
  apply BitVec.eq_of_getLsbD_eq
  intro i hi
  simp only [toUInt32, UInt32.toBitVec_or, UInt32.toBitVec_shiftLeft, UInt32.toBitVec_shiftRight,
    UInt8.toBitVec_toUInt32, UInt32.toBitVec_toUInt8, BitVec.getLsbD_or]
  simp [-BitVec.setWidth_setWidth]
  grind

/-- A 32-bit word that is put together from octets is written as these octets. -/
theorem ofUInt32_toUInt32 (a b c d : UInt8) : ofUInt32 (toUInt32 a b c d) = [a, b, c, d] := by
  simp only [ofUInt32, List.cons.injEq, and_true]
  refine ⟨?_, ?_, ?_, ?_⟩
  all_goals
    apply UInt8.toBitVec_inj.mp
    apply BitVec.eq_of_getLsbD_eq
    intro i hi
    simp [toUInt32, -BitVec.setWidth_setWidth]
  all_goals grind

/-- The natural number whose big-endian digits to base 256 are the octets. -/
def toNat (b : Bytes) : Nat := b.foldl (fun n octet => n * 256 + octet.toNat) 0

/-- The last `width` big-endian digits of `n` to base 256. -/
def ofNat (width n : Nat) : Bytes :=
  go width n []
where
  /-- Writes `k` digits of `m` in front of the digits already written. -/
  go : Nat → Nat → Bytes → Bytes
  | 0, _, acc => acc
  | k + 1, m, acc => go k (m / 256) (UInt8.ofNat m :: acc)

private theorem length_ofNat_go (k m : Nat) (acc : Bytes) :
    (ofNat.go k m acc).length = k + acc.length := by
  induction k generalizing m acc with
  | zero => simp [ofNat.go]
  | succ k ih => simp only [ofNat.go, ih, List.length_cons]; omega

@[simp] theorem length_ofNat (width n : Nat) : (ofNat width n).length = width := by
  simp [ofNat, length_ofNat_go]

private theorem ofNat_go (k m : Nat) (acc : Bytes) : ofNat.go k m acc = ofNat k m ++ acc := by
  induction k generalizing m acc with
  | zero => rfl
  | succ k ih =>
    rw [ofNat.go, ofNat, ofNat.go, ih, ih _ [_], List.append_assoc, List.singleton_append]

theorem ofNat_succ (width n : Nat) :
    ofNat (width + 1) n = ofNat width (n / 256) ++ [UInt8.ofNat n] := by
  rw [ofNat, ofNat.go, ofNat_go]

/-- The digits of a number that they have room for read back as the number. -/
theorem toNat_ofNat {width n : Nat} (h : n < 1 <<< (8 * width)) : toNat (ofNat width n) = n := by
  induction width generalizing n with
  | zero =>
    obtain rfl : n = 0 := Nat.lt_one_iff.1 h
    rfl
  | succ width ih =>
    have hless : n / 256 < 1 <<< (8 * width) := by
      rw [Nat.shiftLeft_eq, Nat.one_mul] at h ⊢
      rw [Nat.mul_succ, Nat.pow_add] at h
      exact Nat.div_lt_of_lt_mul (Nat.mul_comm .. ▸ h)
    have hfront : toNat (ofNat width (n / 256)) = n / 256 := ih hless
    rw [toNat] at hfront ⊢
    rw [ofNat_succ, List.foldl_append, hfront, List.foldl_cons, List.foldl_nil, UInt8.toNat_ofNat']
    exact Nat.div_add_mod' n 256

/-- The first `count` pieces of length `size`. -/
def pieces (size : Nat) : Nat → Bytes → List Bytes
  | 0, _ => []
  | count + 1, b => b.take size :: pieces size count (b.drop size)

/-- The string cut into pieces of length `size`; the last piece holds what is left over. -/
def chunks (size : Nat) (b : Bytes) : List Bytes :=
  pieces size ((b.length + size - 1) / size) b

@[simp] theorem length_pieces (size count : Nat) (b : Bytes) :
    (pieces size count b).length = count := by
  induction count generalizing b with
  | zero => rfl
  | succ count ih => simp [pieces, ih]

@[simp] theorem length_chunks (size : Nat) (b : Bytes) :
    (chunks size b).length = (b.length + size - 1) / size := length_pieces ..

theorem getElem?_pieces (size count : Nat) (b : Bytes) (i : Nat) : (pieces size count b)[i]? =
    if i < count then some ((b.drop (i * size)).take size) else none := by
  induction count generalizing b i with
  | zero => simp [pieces]
  | succ count ih =>
    cases i with
    | zero => simp [pieces]
    | succ i =>
      rw [pieces, List.getElem?_cons_succ, ih, List.drop_drop, Nat.succ_mul, Nat.add_comm size]
      simp

theorem chunks_nil {size : Nat} (h : 0 < size) : chunks size [] = [] := by
  simp [chunks, Nat.div_eq_of_lt (show size - 1 < size by omega), pieces]

/-- A string that is not empty gives its first `size` octets and then the pieces of the rest. -/
theorem chunks_eq_cons {size : Nat} (h : 0 < size) {b : Bytes} (hb : b ≠ []) :
    chunks size b = b.take size :: chunks size (b.drop size) := by
  have hpos : 0 < b.length := List.length_pos_iff.2 hb
  have hcount : (b.length + size - 1) / size = ((b.drop size).length + size - 1) / size + 1 := by
    rw [List.length_drop]
    by_cases hs : size ≤ b.length
    · rw [show b.length + size - 1 = b.length - size + size - 1 + size by omega,
        Nat.add_div_right _ h]
    · rw [show b.length + size - 1 = b.length - 1 + size by omega, Nat.add_div_right _ h,
        Nat.div_eq_of_lt (show b.length - 1 < size by omega),
        Nat.div_eq_of_lt (show b.length - size + size - 1 < size by omega)]
  rw [chunks, hcount]
  rfl

private theorem chunks_cut {size : Nat} (h : 0 < size) (b : Bytes) :
    (chunks size b).flatten = b ∧ ∀ piece ∈ chunks size b, piece ≠ [] := by
  induction hn : b.length using Nat.strongRecOn generalizing b with
  | ind n ih =>
    subst hn
    by_cases hb : b = []
    · subst hb
      simp [chunks_nil h]
    · have hpos : 0 < b.length := List.length_pos_iff.2 hb
      obtain ⟨hflat, hpieces⟩ := ih (b.drop size).length (by rw [List.length_drop]; omega)
        (b.drop size) rfl
      rw [chunks_eq_cons h hb]
      refine ⟨by rw [List.flatten_cons, hflat, List.take_append_drop], ?_⟩
      intro piece hpiece
      rcases List.mem_cons.1 hpiece with rfl | hpiece
      · rw [ne_eq, List.take_eq_nil_iff, not_or]
        exact ⟨by omega, hb⟩
      · exact hpieces piece hpiece

theorem flatten_chunks {size : Nat} (h : 0 < size) (b : Bytes) : (chunks size b).flatten = b :=
  (chunks_cut h b).1

theorem ne_nil_of_mem_chunks {size : Nat} (h : 0 < size) {b piece : Bytes}
    (hpiece : piece ∈ chunks size b) : piece ≠ [] :=
  (chunks_cut h b).2 piece hpiece

/-- Every piece of a string that is a whole number of pieces long is whole. -/
theorem length_of_mem_chunks {size : Nat} (h : 0 < size) {b piece : Bytes} (hb : size ∣ b.length)
    (hpiece : piece ∈ chunks size b) : piece.length = size := by
  obtain ⟨count, hcount⟩ := hb
  have hpieces : (b.length + size - 1) / size = count := by
    rw [hcount, Nat.add_sub_assoc h, Nat.mul_add_div h, Nat.div_eq_of_lt (by omega), Nat.add_zero]
  obtain ⟨i, hi⟩ := List.mem_iff_getElem?.1 hpiece
  rw [chunks, hpieces, getElem?_pieces] at hi
  by_cases hless : i < count
  · rw [if_pos hless] at hi
    cases hi
    have hroom : (i + 1) * size ≤ count * size := Nat.mul_le_mul_right size hless
    rw [Nat.add_mul, Nat.one_mul, Nat.mul_comm count] at hroom
    rw [List.length_take, List.length_drop, hcount]
    omega
  · rw [if_neg hless] at hi
    cases hi

/-- Whole pieces put together are cut into the same pieces again. -/
theorem chunks_flatten {size : Nat} (h : 0 < size) {pieces : List Bytes}
    (hpieces : ∀ piece ∈ pieces, piece.length = size) : chunks size pieces.flatten = pieces := by
  induction pieces with
  | nil => exact chunks_nil h
  | cons piece pieces ih =>
    have hpiece : piece.length = size := hpieces piece (List.mem_cons_self ..)
    have hne : (piece :: pieces).flatten ≠ [] := by
      rw [List.flatten_cons, ne_eq, List.append_eq_nil_iff, not_and]
      intro hnil
      rw [hnil] at hpiece
      exact absurd hpiece.symm (Nat.ne_of_gt h)
    rw [chunks_eq_cons h hne, List.flatten_cons, List.take_left' hpiece, List.drop_left' hpiece,
      ih fun p hp => hpieces p (List.mem_cons_of_mem _ hp)]

end Bytes

end Ctap
