import Ctap.Crypto.Stealing
import Ctap.Proofs.Crypto.Aes
import Mathlib.Data.Fintype.EquivFin
import Mathlib.Data.Fintype.Vector

/-!
# Chaining and ciphertext stealing are bijective

A cipher on blocks whose decryption undoes its encryption is a permutation of the blocks, because
there are finitely many. Chaining turns it into a permutation of the strings of whole blocks, and
ciphertext stealing into one of the strings of every length: each of its three forms, for whole
blocks, for less than one, and for a partial block behind whole ones, is undone in both directions.

## Main definitions

* `BlockCipher`: a cipher on blocks whose decryption undoes its encryption.
* `BlockCipher.Chained`: modes that chain a cipher.
* `Aes.cipher`: AES with a key.

## Main results

* `BlockCipher.encrypt_decrypt`: encryption undoes decryption too.
* `BlockCipher.cbc_decrypt_encrypt`, `BlockCipher.cbc_encrypt_decrypt`: chaining is undone in both
  directions.
* `BlockCipher.Chained.decrypt_encrypt`, `BlockCipher.Chained.encrypt_decrypt`: so is ciphertext
  stealing, and lengths are kept.
* `Suite.chained_standard`: the suite in use chains AES.
-/

namespace Ctap.Crypto

open Aes (blockSize)

/-- A cipher on blocks whose decryption undoes its encryption. -/
structure BlockCipher where
  encrypt : Bytes → Bytes
  decrypt : Bytes → Bytes
  length_encrypt {block : Bytes} : block.length = blockSize → (encrypt block).length = blockSize
  length_decrypt {block : Bytes} : block.length = blockSize → (decrypt block).length = blockSize
  decrypt_encrypt {block : Bytes} : block.length = blockSize → decrypt (encrypt block) = block

namespace BlockCipher

variable (c : BlockCipher)

private theorem finite_blocks : Finite (List.Vector UInt8 blockSize) := by
  have : Finite UInt8 := Finite.of_injective UInt8.toFin fun _ _ h => UInt8.toFin_inj.1 h
  have : Fintype UInt8 := Fintype.ofFinite UInt8
  infer_instance

/-- **Encryption undoes decryption.** There are finitely many blocks, and encryption takes different
ones to different ones, so it reaches all. -/
theorem encrypt_decrypt {block : Bytes} (h : block.length = blockSize) :
    c.encrypt (c.decrypt block) = block := by
  have := finite_blocks
  let encryptBlock (b : List.Vector UInt8 blockSize) : List.Vector UInt8 blockSize :=
    ⟨c.encrypt b.1, c.length_encrypt b.2⟩
  have hinjective : Function.Injective encryptBlock := by
    intro a b hab
    apply Subtype.ext
    rw [← c.decrypt_encrypt a.2, ← c.decrypt_encrypt b.2]
    exact congrArg c.decrypt (congrArg Subtype.val hab)
  obtain ⟨source, hsource⟩ := Finite.injective_iff_surjective.1 hinjective ⟨block, h⟩
  have hblock : c.encrypt source.1 = block := congrArg Subtype.val hsource
  rw [← hblock, c.decrypt_encrypt source.2]

/-! ### Chaining -/

variable {previous : Bytes} {blocks : List Bytes}

theorem decryptBlocks_encryptBlocks (hprevious : previous.length = blockSize)
    (hblocks : ∀ b ∈ blocks, b.length = blockSize) :
    (∀ b ∈ Cbc.encryptBlocks c.encrypt previous blocks, b.length = blockSize) ∧
      Cbc.decryptBlocks c.decrypt previous (Cbc.encryptBlocks c.encrypt previous blocks) =
        blocks := by
  induction blocks generalizing previous with
  | nil => exact ⟨hblocks, rfl⟩
  | cons block blocks ih =>
    obtain ⟨hblock, hrest⟩ := List.forall_mem_cons.1 hblocks
    have hmixed : (Bytes.xor block previous).length = blockSize := by
      rw [Bytes.length_xor, hblock, hprevious, Nat.min_self]
    obtain ⟨hlengths, hundone⟩ := ih (c.length_encrypt hmixed) hrest
    refine ⟨List.forall_mem_cons.2 ⟨c.length_encrypt hmixed, hlengths⟩, ?_⟩
    rw [Cbc.encryptBlocks, Cbc.decryptBlocks, c.decrypt_encrypt hmixed,
      Bytes.xor_xor_cancel (Nat.le_of_eq (hblock.trans hprevious.symm)), hundone]

theorem encryptBlocks_decryptBlocks (hprevious : previous.length = blockSize)
    (hblocks : ∀ b ∈ blocks, b.length = blockSize) :
    (∀ b ∈ Cbc.decryptBlocks c.decrypt previous blocks, b.length = blockSize) ∧
      Cbc.encryptBlocks c.encrypt previous (Cbc.decryptBlocks c.decrypt previous blocks) =
        blocks := by
  induction blocks generalizing previous with
  | nil => exact ⟨hblocks, rfl⟩
  | cons block blocks ih =>
    obtain ⟨hblock, hrest⟩ := List.forall_mem_cons.1 hblocks
    have hopened := c.length_decrypt hblock
    have hmixed : (Bytes.xor (c.decrypt block) previous).length = blockSize := by
      rw [Bytes.length_xor, hopened, hprevious, Nat.min_self]
    obtain ⟨hlengths, hundone⟩ := ih hblock hrest
    refine ⟨List.forall_mem_cons.2 ⟨hmixed, hlengths⟩, ?_⟩
    rw [Cbc.decryptBlocks, Cbc.encryptBlocks,
      Bytes.xor_xor_cancel (Nat.le_of_eq (hopened.trans hprevious.symm)), c.encrypt_decrypt hblock,
      hundone]

private theorem blockSize_pos : 0 < blockSize := by decide

variable {iv data : Bytes}

private theorem length_flatten_of {blocks : List Bytes}
    (h : ∀ b ∈ blocks, b.length = blockSize) :
    blocks.flatten.length = blocks.length * blockSize := by
  rw [List.length_flatten, List.map_congr_left h, List.map_const', List.sum_replicate_nat]

theorem length_encryptBlocks (previous : Bytes) (blocks : List Bytes) :
    (Cbc.encryptBlocks c.encrypt previous blocks).length = blocks.length := by
  induction blocks generalizing previous with
  | nil => rfl
  | cons block blocks ih => rw [Cbc.encryptBlocks, List.length_cons, ih, List.length_cons]

theorem length_decryptBlocks (previous : Bytes) (blocks : List Bytes) :
    (Cbc.decryptBlocks c.decrypt previous blocks).length = blocks.length := by
  induction blocks generalizing previous with
  | nil => rfl
  | cons block blocks ih => rw [Cbc.decryptBlocks, List.length_cons, ih, List.length_cons]

/-- **Chaining is undone, and keeps lengths.** -/
theorem cbc_decrypt_encrypt (hiv : iv.length = blockSize) (hdata : blockSize ∣ data.length) :
    (Cbc.encrypt c.encrypt iv data).length = data.length ∧
      Cbc.decrypt c.decrypt iv (Cbc.encrypt c.encrypt iv data) = data := by
  have hblocks (b : Bytes) : b ∈ Bytes.chunks blockSize data → b.length = blockSize :=
    Bytes.length_of_mem_chunks blockSize_pos hdata
  obtain ⟨hlengths, hundone⟩ := c.decryptBlocks_encryptBlocks hiv hblocks
  constructor
  · rw [Cbc.encrypt, length_flatten_of hlengths, length_encryptBlocks, ← length_flatten_of hblocks,
      Bytes.flatten_chunks blockSize_pos]
  · rw [Cbc.decrypt, Cbc.encrypt, Bytes.chunks_flatten blockSize_pos hlengths, hundone,
      Bytes.flatten_chunks blockSize_pos]

/-- **Chaining undoes its inverse, which keeps lengths.** -/
theorem cbc_encrypt_decrypt (hiv : iv.length = blockSize) (hdata : blockSize ∣ data.length) :
    (Cbc.decrypt c.decrypt iv data).length = data.length ∧
      Cbc.encrypt c.encrypt iv (Cbc.decrypt c.decrypt iv data) = data := by
  have hblocks (b : Bytes) : b ∈ Bytes.chunks blockSize data → b.length = blockSize :=
    Bytes.length_of_mem_chunks blockSize_pos hdata
  obtain ⟨hlengths, hundone⟩ := c.encryptBlocks_decryptBlocks hiv hblocks
  constructor
  · rw [Cbc.decrypt, length_flatten_of hlengths, length_decryptBlocks, ← length_flatten_of hblocks,
      Bytes.flatten_chunks blockSize_pos]
  · rw [Cbc.encrypt, Cbc.decrypt, Bytes.chunks_flatten blockSize_pos hlengths, hundone,
      Bytes.flatten_chunks blockSize_pos]

theorem cbc_encrypt_block {block : Bytes} (h : block.length = blockSize) (iv : Bytes) :
    Cbc.encrypt c.encrypt iv block = c.encrypt (Bytes.xor block iv) := by
  have hblock : Bytes.chunks blockSize [block].flatten = [block] :=
    Bytes.chunks_flatten blockSize_pos (by simpa using h)
  rw [List.flatten_singleton] at hblock
  rw [Cbc.encrypt, hblock, Cbc.encryptBlocks, Cbc.encryptBlocks, List.flatten_singleton]

theorem cbc_decrypt_block {block : Bytes} (h : block.length = blockSize) (iv : Bytes) :
    Cbc.decrypt c.decrypt iv block = Bytes.xor (c.decrypt block) iv := by
  have hblock : Bytes.chunks blockSize [block].flatten = [block] :=
    Bytes.chunks_flatten blockSize_pos (by simpa using h)
  rw [List.flatten_singleton] at hblock
  rw [Cbc.decrypt, hblock, Cbc.decryptBlocks, Cbc.decryptBlocks, List.flatten_singleton]

/-! ### Ciphertext stealing -/

/-- Modes that chain a cipher over whole blocks. -/
structure Chained (encryptBlocks decryptBlocks : Stealing.Mode) : Prop where
  encrypt {iv data : Bytes} : iv.length = blockSize → blockSize ∣ data.length →
    encryptBlocks iv data = .ok (Cbc.encrypt c.encrypt iv data)
  decrypt {iv data : Bytes} : iv.length = blockSize → blockSize ∣ data.length →
    decryptBlocks iv data = .ok (Cbc.decrypt c.decrypt iv data)

namespace Chained

variable {c} {e d : Stealing.Mode} (h : c.Chained e d)

include h

theorem mask_eq (hiv : iv.length = blockSize) (data : Bytes) :
    Stealing.mask e iv data = .ok (Bytes.xor data (c.encrypt iv)) := by
  rw [Stealing.mask, h.encrypt (Bytes.length_zeros _) (Dvd.intro_left 1 (by rw [hiv, Nat.one_mul])),
    c.cbc_encrypt_block hiv, Bytes.xor_zeros (Nat.le_of_eq hiv)]
  rfl

theorem encrypt_whole (hiv : iv.length = blockSize) (hdata : blockSize ∣ data.length) :
    Stealing.encrypt e iv data = .ok (Cbc.encrypt c.encrypt iv data) := by
  simp only [Stealing.encrypt, Nat.mod_eq_zero_of_dvd hdata, if_true, h.encrypt hiv hdata]

theorem decrypt_whole (hiv : iv.length = blockSize) (hdata : blockSize ∣ data.length) :
    Stealing.decrypt e d iv data = .ok (Cbc.decrypt c.decrypt iv data) := by
  simp only [Stealing.decrypt, Nat.mod_eq_zero_of_dvd hdata, if_true, h.decrypt hiv hdata]

/-- Less than a block is combined with the encrypted initial vector, in both directions. -/
theorem encrypt_short (hiv : iv.length = blockSize) (htail : data.length % blockSize ≠ 0)
    (hshort : data.length < blockSize) :
    Stealing.encrypt e iv data = .ok (Bytes.xor data (c.encrypt iv)) ∧
      Stealing.decrypt e d iv data = .ok (Bytes.xor data (c.encrypt iv)) := by
  simp only [Stealing.encrypt, Stealing.decrypt, if_neg htail, if_pos hshort, h.mask_eq hiv,
    and_self]

omit h in
private theorem xor_short (hiv : iv.length = blockSize) (hshort : data.length < blockSize) :
    (Bytes.xor data (c.encrypt iv)).length = data.length ∧
      Bytes.xor (Bytes.xor data (c.encrypt iv)) (c.encrypt iv) = data := by
  have hpad : data.length ≤ (c.encrypt iv).length := by
    rw [c.length_encrypt hiv]
    exact Nat.le_of_lt hshort
  exact ⟨by rw [Bytes.length_xor, Nat.min_eq_left hpad], Bytes.xor_xor_cancel hpad⟩

omit h in
private theorem partial_tail {front last : Bytes} (hfront : blockSize ∣ front.length)
    (hless : last.length < blockSize) : (front ++ last).length % blockSize = last.length := by
  rw [List.length_append, Nat.add_mod, Nat.mod_eq_zero_of_dvd hfront, Nat.zero_add, Nat.mod_mod,
    Nat.mod_eq_of_lt hless]

/-- A partial block takes the place of the first octets of the block before, which it is combined
with. -/
theorem encrypt_partial (hiv : iv.length = blockSize) {front last head previous : Bytes}
    (hfront : blockSize ∣ front.length) (hpos : 0 < last.length) (hless : last.length < blockSize)
    (hbody : Cbc.encrypt c.encrypt iv front = head ++ previous)
    (hprevious : previous.length = blockSize) :
    Stealing.encrypt e iv (front ++ last) = .ok (head ++ previous.take last.length ++
      c.encrypt (Bytes.xor last (previous.take last.length) ++ previous.drop last.length)) := by
  have hlength := (c.cbc_decrypt_encrypt hiv hfront).1
  rw [hbody, List.length_append, hprevious] at hlength
  have hpadded : (Bytes.padTo blockSize last).length = blockSize := by
    rw [Bytes.length_padTo]
    exact Nat.max_eq_left (Nat.le_of_lt hless)
  have hlong : ¬ (front ++ last).length < blockSize := by
    rw [List.length_append]
    omega
  have hsplit : (front ++ last).length - last.length = front.length := by
    rw [List.length_append, Nat.add_sub_cancel]
  have hhead : front.length - blockSize = head.length := by omega
  have hstolen : e previous (Bytes.padTo blockSize last) =
      .ok (c.encrypt
        (Bytes.xor last (previous.take last.length) ++ previous.drop last.length)) := by
    rw [h.encrypt hprevious ⟨1, by rw [hpadded, Nat.mul_one]⟩, c.cbc_encrypt_block hpadded,
      Bytes.xor_padTo (Nat.le_of_lt hless) hprevious]
  simp only [Stealing.encrypt, partial_tail hfront hless, if_neg (Nat.ne_of_gt hpos), if_neg hlong,
    hsplit, List.take_left', List.drop_left', h.encrypt hiv hfront, hbody, hhead, bind, Except.bind,
    hstolen, pure, Except.pure, List.take_length_add_append]

/-- The block before a partial one is put together again. -/
theorem decrypt_partial (hiv : iv.length = blockSize) {head kept final : Bytes}
    (hhead : blockSize ∣ head.length) (hpos : 0 < kept.length) (hless : kept.length < blockSize)
    (hfinal : final.length = blockSize) :
    Stealing.decrypt e d iv (head ++ kept ++ final) = .ok (Cbc.decrypt c.decrypt iv
      (head ++ (kept ++ (c.decrypt final).drop kept.length)) ++
        Bytes.xor ((c.decrypt final).take kept.length) kept) := by
  have htail : (head ++ kept ++ final).length % blockSize = kept.length := by
    rw [List.length_append, hfinal, Nat.add_mod_right, partial_tail hhead hless]
  have hlong : ¬ (head ++ kept ++ final).length < blockSize := by
    rw [List.length_append]
    omega
  have hsplit : (head ++ kept ++ final).length - kept.length - blockSize = head.length := by
    rw [List.length_append, List.length_append]
    omega
  have hlast : (head ++ kept ++ final).length - blockSize = (head ++ kept).length := by
    rw [List.length_append, hfinal, Nat.add_sub_cancel]
  have hopened := c.length_decrypt hfinal
  have hmixed : d (Bytes.zeros blockSize) final = .ok (c.decrypt final) := by
    rw [h.decrypt (Bytes.length_zeros _) ⟨1, by rw [hfinal, Nat.mul_one]⟩,
      c.cbc_decrypt_block hfinal, Bytes.xor_zeros (Nat.le_of_eq hopened)]
  have hbody : blockSize ∣ (head ++ (kept ++ (c.decrypt final).drop kept.length)).length := by
    rw [List.length_append, List.length_append, List.length_drop, hopened]
    exact (Nat.dvd_add_iff_right hhead).1 ⟨1, by omega⟩
  simp only [Stealing.decrypt, htail, if_neg (Nat.ne_of_gt hpos), if_neg hlong, hsplit, hlast,
    List.drop_left', hmixed, bind, Except.bind, pure, Except.pure]
  rw [List.append_assoc head, List.take_left, List.drop_left, List.take_left,
    h.decrypt hiv hbody]

omit h in
/-- A string of at least one block with a partial one at its end: whole blocks and the rest. -/
private theorem exists_partial {data : Bytes} (hlong : blockSize ≤ data.length)
    (htail : data.length % blockSize ≠ 0) : ∃ front last, data = front ++ last ∧
      blockSize ∣ front.length ∧ 0 < front.length ∧ 0 < last.length ∧ last.length < blockSize := by
  have hdiv := Nat.div_add_mod data.length blockSize
  have hpos : 0 < data.length / blockSize := Nat.div_pos hlong blockSize_pos
  have hless := Nat.mod_lt data.length blockSize_pos
  have hroom := Nat.mul_pos blockSize_pos hpos
  refine ⟨data.take (blockSize * (data.length / blockSize)),
    data.drop (blockSize * (data.length / blockSize)), (List.take_append_drop ..).symm, ?_⟩
  rw [List.length_take, List.length_drop, Nat.min_eq_left (by omega)]
  exact ⟨⟨_, rfl⟩, hroom, by omega, by omega⟩

omit h in
private theorem exists_stolen {data : Bytes} (hlong : blockSize ≤ data.length)
    (htail : data.length % blockSize ≠ 0) : ∃ head kept final, data = head ++ kept ++ final ∧
      blockSize ∣ head.length ∧ 0 < kept.length ∧ kept.length < blockSize ∧
        final.length = blockSize := by
  obtain ⟨front, last, rfl, hfront, hne, hpos, hless⟩ := exists_partial hlong htail
  have hroom : blockSize ≤ front.length := Nat.le_of_dvd hne hfront
  have hhead : ((front ++ last).take (front.length - blockSize)).length =
      front.length - blockSize := by
    rw [List.length_take, List.length_append]
    omega
  refine ⟨(front ++ last).take (front.length - blockSize),
    ((front ++ last).drop (front.length - blockSize)).take last.length,
    ((front ++ last).drop (front.length - blockSize)).drop last.length, ?_, ?_, ?_⟩
  · rw [List.append_assoc, List.take_append_drop, List.take_append_drop]
  · rw [hhead]
    exact Nat.dvd_sub hfront (Nat.dvd_refl _)
  · simp only [List.length_take, List.length_drop, List.length_append]
    omega

private theorem decrypt_encrypt_partial (hiv : iv.length = blockSize) {front last : Bytes}
    (hfront : blockSize ∣ front.length) (hne : 0 < front.length) (hpos : 0 < last.length)
    (hless : last.length < blockSize) : ∃ body, Stealing.encrypt e iv (front ++ last) = .ok body ∧
      body.length = (front ++ last).length ∧
      Stealing.decrypt e d iv body = .ok (front ++ last) := by
  obtain ⟨hlength, hundone⟩ := c.cbc_decrypt_encrypt hiv hfront
  have hlong : blockSize ≤ front.length := Nat.le_of_dvd hne hfront
  -- The last block that is chained is the one that octets are taken from.
  obtain ⟨head, previous, hbody, hhead, hprevious⟩ : ∃ head previous,
      Cbc.encrypt c.encrypt iv front = head ++ previous ∧ blockSize ∣ head.length ∧
        previous.length = blockSize := by
    refine ⟨_, _, (List.take_append_drop (front.length - blockSize) _).symm, ?_, ?_⟩
    · rw [List.length_take, hlength, Nat.min_eq_left (Nat.sub_le ..)]
      exact Nat.dvd_sub hfront (Nat.dvd_refl _)
    · rw [List.length_drop, hlength]
      omega
  have hkept : (previous.take last.length).length = last.length := by
    rw [List.length_take, hprevious, Nat.min_eq_left (Nat.le_of_lt hless)]
  have hmixed : (Bytes.xor last (previous.take last.length)).length = last.length := by
    rw [Bytes.length_xor, hkept, Nat.min_self]
  have hblock : (Bytes.xor last (previous.take last.length) ++
      previous.drop last.length).length = blockSize := by
    rw [List.length_append, hmixed, List.length_drop, hprevious]
    omega
  refine ⟨_, h.encrypt_partial hiv hfront hpos hless hbody hprevious, ?_, ?_⟩
  · rw [hbody, List.length_append, hprevious] at hlength
    rw [List.length_append, List.length_append, hkept, c.length_encrypt hblock, List.length_append]
    omega
  · rw [h.decrypt_partial hiv hhead (hkept.symm ▸ hpos) (hkept.symm ▸ hless)
      (c.length_encrypt hblock), c.decrypt_encrypt hblock, hkept, List.drop_left' hmixed,
      List.take_left' hmixed, List.take_append_drop, ← hbody, hundone,
      Bytes.xor_xor_cancel (Nat.le_of_eq hkept.symm)]

private theorem encrypt_decrypt_partial (hiv : iv.length = blockSize) {head kept final : Bytes}
    (hhead : blockSize ∣ head.length) (hpos : 0 < kept.length) (hless : kept.length < blockSize)
    (hfinal : final.length = blockSize) : ∃ plaintext,
      Stealing.decrypt e d iv (head ++ kept ++ final) = .ok plaintext ∧
      plaintext.length = (head ++ kept ++ final).length ∧
      Stealing.encrypt e iv plaintext = .ok (head ++ kept ++ final) := by
  have hopened := c.length_decrypt hfinal
  have hprevious : (kept ++ (c.decrypt final).drop kept.length).length = blockSize := by
    rw [List.length_append, List.length_drop, hopened]
    omega
  have hwhole : blockSize ∣ (head ++ (kept ++ (c.decrypt final).drop kept.length)).length := by
    rw [List.length_append, hprevious]
    exact (Nat.dvd_add_right hhead).2 (Nat.dvd_refl _)
  obtain ⟨hlength, hundone⟩ := c.cbc_encrypt_decrypt hiv hwhole
  have htake : ((c.decrypt final).take kept.length).length = kept.length := by
    rw [List.length_take, hopened, Nat.min_eq_left (Nat.le_of_lt hless)]
  have hlast : (Bytes.xor ((c.decrypt final).take kept.length) kept).length = kept.length := by
    rw [Bytes.length_xor, htake, Nat.min_self]
  refine ⟨_, h.decrypt_partial hiv hhead hpos hless hfinal, ?_, ?_⟩
  · rw [List.length_append, hlength, hlast, List.length_append, hprevious, List.length_append,
      List.length_append, hfinal]
    omega
  · rw [h.encrypt_partial hiv (hlength.symm ▸ hwhole) (hlast.symm ▸ hpos) (hlast.symm ▸ hless)
      hundone hprevious, hlast, List.take_left, List.drop_left,
      Bytes.xor_xor_cancel (Nat.le_of_eq htake), List.take_append_drop, c.encrypt_decrypt hfinal]

/-- **Decryption undoes encryption**, for every length, and the ciphertext is as long as the
message. -/
theorem decrypt_encrypt (hiv : iv.length = blockSize) (plaintext : Bytes) :
    ∃ body, Stealing.encrypt e iv plaintext = .ok body ∧ body.length = plaintext.length ∧
      Stealing.decrypt e d iv body = .ok plaintext := by
  by_cases htail : plaintext.length % blockSize = 0
  · have hwhole := Nat.dvd_of_mod_eq_zero htail
    obtain ⟨hlength, hundone⟩ := c.cbc_decrypt_encrypt hiv hwhole
    refine ⟨_, h.encrypt_whole hiv hwhole, hlength, ?_⟩
    rw [h.decrypt_whole hiv (hlength ▸ hwhole), hundone]
  by_cases hshort : plaintext.length < blockSize
  · obtain ⟨hlength, hundone⟩ := xor_short hiv hshort
    refine ⟨_, (h.encrypt_short hiv htail hshort).1, hlength, ?_⟩
    rw [(h.encrypt_short hiv (hlength ▸ htail) (hlength ▸ hshort)).2, hundone]
  · obtain ⟨front, last, rfl, hfront, hne, hpos, hless⟩ :=
      exists_partial (Nat.le_of_not_lt hshort) htail
    exact h.decrypt_encrypt_partial hiv hfront hne hpos hless

/-- **Encryption undoes decryption**, for every length: every string is a ciphertext. -/
theorem encrypt_decrypt (hiv : iv.length = blockSize) (ciphertext : Bytes) :
    ∃ plaintext, Stealing.decrypt e d iv ciphertext = .ok plaintext ∧
      plaintext.length = ciphertext.length ∧
      Stealing.encrypt e iv plaintext = .ok ciphertext := by
  by_cases htail : ciphertext.length % blockSize = 0
  · have hwhole := Nat.dvd_of_mod_eq_zero htail
    obtain ⟨hlength, hundone⟩ := c.cbc_encrypt_decrypt hiv hwhole
    refine ⟨_, h.decrypt_whole hiv hwhole, hlength, ?_⟩
    rw [h.encrypt_whole hiv (hlength ▸ hwhole), hundone]
  by_cases hshort : ciphertext.length < blockSize
  · obtain ⟨hlength, hundone⟩ := xor_short hiv hshort
    refine ⟨_, (h.encrypt_short hiv htail hshort).2, hlength, ?_⟩
    rw [(h.encrypt_short hiv (hlength ▸ htail) (hlength ▸ hshort)).1, hundone]
  · obtain ⟨head, kept, final, rfl, hhead, hpos, hless, hfinal⟩ :=
      exists_stolen (Nat.le_of_not_lt hshort) htail
    exact h.encrypt_decrypt_partial hiv hhead hpos hless hfinal

end Chained

end BlockCipher

/-! ### AES -/

/-- AES with a key. -/
def Aes.cipher (key : Bytes) (h : key.length = 16 ∨ key.length = 32) : BlockCipher where
  encrypt := encryptBlock (.ofKey key)
  decrypt := decryptBlock (.ofKey key)
  length_encrypt _ := length_encryptBlock (KeySchedule.whole_ofKey h) _
  length_decrypt _ := length_decryptBlock (KeySchedule.whole_ofKey h) _
  decrypt_encrypt := decryptBlock_encryptBlock (KeySchedule.whole_ofKey h)

/-- **The suite in use chains AES.** -/
theorem Suite.chained_standard (scalar : Nat) {key : Bytes}
    (h : key.length = 16 ∨ key.length = 32) : (Aes.cipher key h).Chained
      ((Suite.standard scalar).encrypt key) ((Suite.standard scalar).decrypt key) := by
  have hcheck {data : Bytes} (hdata : blockSize ∣ data.length) : checkCbc key data = .ok () := by
    rw [checkCbc, if_neg (not_not_intro (Nat.mod_eq_zero_of_dvd hdata)), if_pos h]
  constructor
  · intro iv data _ hdata
    change aesCbcEncrypt key iv data = _
    rw [aesCbcEncrypt, hcheck hdata]
    rfl
  · intro iv data _ hdata
    change aesCbcDecrypt key iv data = _
    rw [aesCbcDecrypt, hcheck hdata]
    rfl

end Ctap.Crypto
