import Ctap.Crypto.Aes
import Ctap.Crypto.Error

/-!
# Cipher block chaining

Each block is combined with the ciphertext block before it and then encrypted. The block cipher is a
parameter; nothing here depends on which one it is.

## Main definitions

* `Cbc.encryptBlocks`, `Cbc.decryptBlocks`: chaining over a list of blocks.
* `Cbc.encrypt`, `Cbc.decrypt`: chaining over octets whose number is a multiple of 16.
* `aesCbcEncrypt`, `aesCbcDecrypt`: chaining with AES, which refuses other lengths.
-/

namespace Ctap.Crypto

namespace Cbc

/-- Chains blocks through an encryption; the first is combined with `previous`. -/
def encryptBlocks (encryptBlock : Bytes → Bytes) (previous : Bytes) : List Bytes → List Bytes
  | [] => []
  | block :: rest =>
    let sealed := encryptBlock (Bytes.xor block previous)
    sealed :: encryptBlocks encryptBlock sealed rest

/-- Undoes the chaining of blocks. -/
def decryptBlocks (decryptBlock : Bytes → Bytes) (previous : Bytes) : List Bytes → List Bytes
  | [] => []
  | sealed :: rest =>
    Bytes.xor (decryptBlock sealed) previous :: decryptBlocks decryptBlock sealed rest

/-- Chaining over octets. -/
def encrypt (encryptBlock : Bytes → Bytes) (iv data : Bytes) : Bytes :=
  (encryptBlocks encryptBlock iv (Bytes.chunks Aes.blockSize data)).flatten

/-- Undoes the chaining over octets. -/
def decrypt (decryptBlock : Bytes → Bytes) (iv data : Bytes) : Bytes :=
  (decryptBlocks decryptBlock iv (Bytes.chunks Aes.blockSize data)).flatten

end Cbc

/-- Refuses data that is no whole number of blocks, and then keys of another length than 16 or 32.
-/
def checkCbc (key data : Bytes) : Except Error Unit :=
  if data.length % Aes.blockSize ≠ 0 then
    .error (.invalidLength data.length "AES-CBC input must be a multiple of 16 bytes")
  else if key.length = 16 ∨ key.length = 32 then .ok ()
  else .error (.invalidKeyLength 32 key.length)

/-- AES in chaining mode without padding. -/
def aesCbcEncrypt (key iv data : Bytes) : Except Error Bytes :=
  match checkCbc key data with
  | .error e => .error e
  | .ok () => .ok (Cbc.encrypt (Aes.encryptBlock (.ofKey key)) iv data)

/-- The inverse of AES in chaining mode without padding. -/
def aesCbcDecrypt (key iv data : Bytes) : Except Error Bytes :=
  match checkCbc key data with
  | .error e => .error e
  | .ok () => .ok (Cbc.decrypt (Aes.decryptBlock (.ofKey key)) iv data)

end Ctap.Crypto
