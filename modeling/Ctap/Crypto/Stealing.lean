import Ctap.Crypto.Aes
import Ctap.Crypto.Error

/-!
# Ciphertext stealing

Chaining mode for messages of any length, without padding: the ciphertext is as long as the message.
Whole blocks are chained as usual. A message with a partial block at its end fills it up with octets
of the ciphertext block before, which is then shortened. A message shorter than a block is combined
with the encrypted initial vector.

## Main definitions

* `Stealing.encrypt`, `Stealing.decrypt`: over a mode that takes whole blocks.
-/

namespace Ctap.Crypto.Stealing

/-- A mode that takes whole blocks: initial vector and data. -/
abbrev Mode : Type := Bytes → Bytes → Except Error Bytes

/-- Combines a message shorter than a block with the encrypted initial vector. -/
def mask (encryptBlocks : Mode) (iv data : Bytes) : Except Error Bytes := do
  let pad ← encryptBlocks (Bytes.zeros Aes.blockSize) iv
  return Bytes.xor data pad

/-- Encrypts a message of any length. -/
def encrypt (encryptBlocks : Mode) (iv data : Bytes) : Except Error Bytes :=
  let tail := data.length % Aes.blockSize
  if tail = 0 then encryptBlocks iv data
  else if data.length < Aes.blockSize then mask encryptBlocks iv data
  else do
    let split := data.length - tail
    let body ← encryptBlocks iv (data.take split)
    let previous := body.drop (split - Aes.blockSize)
    let stolen ← encryptBlocks previous (Bytes.padTo Aes.blockSize (data.drop split))
    return body.take (split - Aes.blockSize + tail) ++ stolen

/-- Decrypts a message of any length. -/
def decrypt (encryptBlocks decryptBlocks : Mode) (iv data : Bytes) : Except Error Bytes :=
  let tail := data.length % Aes.blockSize
  if tail = 0 then decryptBlocks iv data
  else if data.length < Aes.blockSize then mask encryptBlocks iv data
  else do
    let head := data.length - tail - Aes.blockSize
    let mixed ← decryptBlocks (Bytes.zeros Aes.blockSize) (data.drop (data.length - Aes.blockSize))
    let kept := (data.drop head).take tail
    let previous := kept ++ mixed.drop tail
    let body ← decryptBlocks iv (data.take head ++ previous)
    return body ++ Bytes.xor (mixed.take tail) kept

end Ctap.Crypto.Stealing
