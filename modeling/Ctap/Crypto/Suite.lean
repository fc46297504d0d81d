import Ctap.Crypto.Cbc
import Ctap.Crypto.Hmac
import Ctap.Crypto.PublicPoint

/-!
# Cryptographic suites

A suite gathers the primitives that the PIN/UV protocols use. Protocols take a suite as a parameter,
so that laws about them rest on the laws of its primitives only.

## Main definitions

* `Agreement`: what key agreement with a peer leaves behind.
* `Suite`: the primitives.
* `Suite.standard`: SHA-256, HMAC, HKDF, AES in chaining mode and P-256 with a given secret scalar.
-/

namespace Ctap.Crypto

/-- The outcome of key agreement: the own public point and the secret shared with the peer. -/
structure Agreement where
  publicPoint : PublicPoint
  sharedSecret : Bytes
deriving Repr

/-- The text of an agreement, which does not show the secret. -/
def Agreement.describe (a : Agreement) : String :=
  "KeyAgreementState \x7b platform_public: " ++ a.publicPoint.describe ++ ", .. \x7d"

/-- The primitives used by the PIN/UV protocols. -/
structure Suite where
  digest : Bytes → Bytes
  authenticate (key message : Bytes) : Except Error Bytes
  /-- A key from a salt, keying material and a context. -/
  derive (salt material context : Bytes) : Except Error Bytes
  encrypt (key iv data : Bytes) : Except Error Bytes
  decrypt (key iv data : Bytes) : Except Error Bytes
  agree (peer : PublicPoint) : Except Error Agreement

/-- The public point of a secret scalar. -/
def publicPointOf (scalar : Nat) : PublicPoint :=
  .ofNats (P256.multiply scalar P256.generator)

/-- The suite in use, with the secret scalar for key agreement. A peer that is not on the curve is
refused. -/
def Suite.standard (scalar : Nat) : Suite where
  digest := sha256
  authenticate key message := .ok (hmac key message)
  derive salt material context := .ok (hkdf salt material context)
  encrypt := aesCbcEncrypt
  decrypt := aesCbcDecrypt
  agree peer :=
    match peer.toNats? with
    | none => .error .invalidPublicKey
    | some point =>
      .ok ⟨publicPointOf scalar, Bytes.ofNat 32 (P256.multiply scalar point).1⟩

end Ctap.Crypto
