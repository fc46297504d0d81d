import Ctap.Pin.Protocol
import Ctap.Proofs.Crypto.Chaining

/-!
# Encryption with the PIN/UV protocols

Protocol two takes messages of every length. Over a suite that chains a block cipher it is a
bijection: between the messages of a length and, for each initial vector, the strings of that length
that come behind it. Protocol one takes whole blocks only, and chains them from zeros.

## Main results

* `Protocol.one_encrypt_eq`, `Protocol.one_decrypt_eq`: protocol one is chaining.
* `Protocol.two_is_bijective`: protocol two, for messages and ciphertexts of every length.
-/

namespace Ctap.Pin

open Crypto (BlockCipher Suite)
open Crypto.Aes (blockSize)

theorem Entropy.draw_append {iv : Bytes} {n : Nat} (h : iv.length = n) (more : Bytes) :
    Entropy.draw ⟨iv ++ more⟩ n = (iv, ⟨more⟩) := by
  rw [draw, List.take_left' h, List.drop_left' h, Bytes.padTo, h, Nat.sub_self]
  exact congrArg (·, _) (List.append_nil iv)

namespace Protocol

variable {suite : Suite} {key : PlatformKey} {c : BlockCipher}

theorem checkAligned_of_dvd {data : Bytes} (h : blockSize ∣ data.length) :
    checkAligned data = .ok () := by
  rw [checkAligned, if_pos (Nat.mod_eq_zero_of_dvd h)]

/-- Protocol one chains whole blocks from zeros, whatever is drawn. -/
theorem one_encrypt_eq (h : c.Chained (suite.encrypt key.oneKey) (suite.decrypt key.oneKey))
    {plaintext : Bytes} (hwhole : blockSize ∣ plaintext.length) (iv : Bytes) :
    one.encrypt suite key iv plaintext =
      .ok (Crypto.Cbc.encrypt c.encrypt (Bytes.zeros blockSize) plaintext) := by
  rw [encrypt, checkAligned_of_dvd hwhole]
  exact h.encrypt (Bytes.length_zeros _) hwhole

theorem one_decrypt_eq (h : c.Chained (suite.encrypt key.oneKey) (suite.decrypt key.oneKey))
    {ciphertext : Bytes} (hwhole : blockSize ∣ ciphertext.length) :
    one.decrypt suite key ciphertext =
      .ok (Crypto.Cbc.decrypt c.decrypt (Bytes.zeros blockSize) ciphertext) := by
  rw [decrypt, checkAligned_of_dvd hwhole]
  exact h.decrypt (Bytes.length_zeros _) hwhole

theorem two_encrypt_eq {iv plaintext body : Bytes}
    (h : Crypto.Stealing.encrypt (suite.encrypt key.twoAesKey) iv plaintext = .ok body) :
    two.encrypt suite key iv plaintext = .ok (iv ++ body) := by
  simp only [encrypt, h]
  rfl

theorem two_decrypt_eq {iv : Bytes} (hiv : iv.length = blockSize) (body : Bytes) :
    two.decrypt suite key (iv ++ body) = Crypto.Stealing.decrypt (suite.encrypt key.twoAesKey)
      (suite.decrypt key.twoAesKey) iv body := by
  have hlong : ¬ (iv ++ body).length < blockSize := by
    rw [List.length_append, hiv]
    exact Nat.not_lt.2 (Nat.le_add_right ..)
  simp only [decrypt, if_neg hlong, List.take_left' hiv, List.drop_left' hiv]

/-- **Protocol two is a bijection that keeps lengths.** Whatever initial vector is drawn, a message
of any length is encrypted to this vector and as many octets as the message has, and decrypted
again; whole blocks are chained as usual. Conversely every string of at least 16 octets is decrypted
to 16 octets less, and is what comes of encrypting them with its first 16 octets as initial vector.
-/
theorem two_is_bijective
    (h : c.Chained (suite.encrypt key.twoAesKey) (suite.decrypt key.twoAesKey)) :
    (∀ (source : Entropy) (plaintext : Bytes), ∃ iv body,
      iv = (source.draw blockSize).1 ∧ iv.length = blockSize ∧
      two.encryptDrawing suite key plaintext source =
        (.ok (iv ++ body), (source.draw blockSize).2) ∧
      body.length = plaintext.length ∧
      (blockSize ∣ plaintext.length → body = Crypto.Cbc.encrypt c.encrypt iv plaintext) ∧
      two.decrypt suite key (iv ++ body) = .ok plaintext) ∧
    ∀ ciphertext : Bytes, blockSize ≤ ciphertext.length → ∃ plaintext,
      two.decrypt suite key ciphertext = .ok plaintext ∧
      plaintext.length + blockSize = ciphertext.length ∧
      ∀ more, two.encryptDrawing suite key plaintext ⟨ciphertext.take blockSize ++ more⟩ =
        (.ok ciphertext, ⟨more⟩) := by
  constructor
  · intro source plaintext
    have hiv := source.length_draw blockSize
    obtain ⟨body, hencrypt, hlength, hdecrypt⟩ := h.decrypt_encrypt hiv plaintext
    refine ⟨_, body, rfl, hiv, ?_, hlength, ?_, ?_⟩
    · rw [encryptDrawing, ivLength, two_encrypt_eq hencrypt]
    · intro hwhole
      rw [h.encrypt_whole hiv hwhole] at hencrypt
      exact (Except.ok.inj hencrypt).symm
    · rw [two_decrypt_eq hiv, hdecrypt]
  · intro ciphertext hlong
    have hiv : (ciphertext.take blockSize).length = blockSize := by
      rw [List.length_take, Nat.min_eq_left hlong]
    obtain ⟨plaintext, hdecrypt, hlength, hencrypt⟩ :=
      h.encrypt_decrypt hiv (ciphertext.drop blockSize)
    refine ⟨plaintext, ?_, ?_, ?_⟩
    · rw [← hdecrypt, ← two_decrypt_eq hiv, List.take_append_drop]
    · rw [hlength, List.length_drop, Nat.sub_add_cancel hlong]
    · intro more
      rw [encryptDrawing, ivLength, Entropy.draw_append hiv, two_encrypt_eq hencrypt,
        List.take_append_drop]

/-- The keys of a platform that shares zeros with its authenticator. -/
def zeroKey : PlatformKey where
  publicPoint := ⟨Bytes.zeros 32, Bytes.zeros 32, rfl, rfl⟩
  oneKey := Bytes.zeros 32
  twoAesKey := Bytes.zeros 32
  twoHmacKey := Bytes.zeros 32

/-- With AES, a message of one block and one octet more is encrypted and decrypted again. -/
theorem two_is_bijective_on_seventeen_octets : ∃ body,
    two.encryptDrawing (Suite.standard 1) zeroKey (Bytes.zeros 17) ⟨Bytes.zeros 16⟩ =
        (.ok (Bytes.zeros 16 ++ body), ⟨[]⟩) ∧ body.length = 17 ∧
      two.decrypt (Suite.standard 1) zeroKey (Bytes.zeros 16 ++ body) = .ok (Bytes.zeros 17) := by
  have hkey : zeroKey.twoAesKey.length = 16 ∨ zeroKey.twoAesKey.length = 32 := .inr rfl
  obtain ⟨iv, body, rfl, -, hencrypt, hlength, -, hdecrypt⟩ :=
    (two_is_bijective (Suite.chained_standard 1 hkey)).1 ⟨Bytes.zeros 16⟩ (Bytes.zeros 17)
  exact ⟨body, hencrypt, hlength, hdecrypt⟩

end Protocol

end Ctap.Pin
