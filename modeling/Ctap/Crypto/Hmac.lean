import Ctap.Crypto.Sha256

/-!
# Authentication codes and derived keys

HMAC and HKDF over SHA-256. A key longer than a block is replaced by its digest. HKDF is used for
keys of at most one digest.

## Main definitions

* `hmac`: the authentication code of a message.
* `hkdf`: a key of 32 octets from a salt, keying material and a context.
-/

namespace Ctap.Crypto

/-- A key brought to the length of a block. -/
def hmacKey (key : Bytes) : Bytes :=
  Bytes.padTo 64 (if 64 < key.length then sha256 key else key)

/-- The authentication code of a message under a key of any length. -/
def hmac (key message : Bytes) : Bytes :=
  let inner := sha256 ((hmacKey key).map (· ^^^ 0x36) ++ message)
  sha256 ((hmacKey key).map (· ^^^ 0x5c) ++ inner)

@[simp] theorem length_hmac (key message : Bytes) : (hmac key message).length = 32 :=
  length_sha256 _

/-- A key of 32 octets: the keying material is condensed under the salt and bound to the context. -/
def hkdf (salt material context : Bytes) : Bytes :=
  hmac (hmac salt material) (context ++ [1])

@[simp] theorem length_hkdf (salt material context : Bytes) :
    (hkdf salt material context).length = 32 := length_hmac _ _

end Ctap.Crypto
