import Ctap.Crypto.Suite

/-!
# Platform keys

Key agreement with an authenticator gives a shared secret, from which three keys are derived: one
for protocol one and two, for encryption and for authentication, for protocol two.

## Main definitions

* `deriveKey`: a key from the shared secret.
* `PlatformKey`: the own public point and the three keys.
* `PlatformKey.agree`: the keys shared with a peer.
-/

namespace Ctap.Pin

open Crypto (Agreement PublicPoint Suite)

/-- The octets of an ASCII text. -/
def asciiOctets (text : String) : Bytes := text.toList.map fun c => UInt8.ofNat c.toNat

/-- The context of the encryption key of protocol two. -/
def aesContext : Bytes := asciiOctets "CTAP2 AES key"

/-- The context of the authentication key of protocol two. -/
def hmacContext : Bytes := asciiOctets "CTAP2 HMAC key"

/-- The salt of both keys of protocol two. -/
def kdfSalt : Bytes := Bytes.zeros 32

/-- A key from the shared secret: bound to a context, or its plain digest. -/
def deriveKey (suite : Suite) (a : Agreement) (bound : Bool) (salt context : Bytes) :
    Except Crypto.Error Bytes :=
  if bound then suite.derive salt a.sharedSecret context else .ok (suite.digest a.sharedSecret)

/-- The keys shared with an authenticator. -/
structure PlatformKey where
  publicPoint : PublicPoint
  oneKey : Bytes
  twoAesKey : Bytes
  twoHmacKey : Bytes
deriving DecidableEq, Repr

namespace PlatformKey

/-- The three keys of an agreement. -/
def ofAgreement (suite : Suite) (a : Agreement) : Except Crypto.Error PlatformKey := do
  let one ← deriveKey suite a false kdfSalt []
  let aes ← deriveKey suite a true kdfSalt aesContext
  let mac ← deriveKey suite a true kdfSalt hmacContext
  return ⟨a.publicPoint, one, aes, mac⟩

/-- The keys shared with a peer. -/
def agree (suite : Suite) (peer : PublicPoint) : Except Crypto.Error PlatformKey := do
  let a ← suite.agree peer
  ofAgreement suite a

/-- The text of a platform key, which shows no secret. -/
def describe (key : PlatformKey) : String :=
  "PlatformKey \x7b public: " ++ key.publicPoint.describe ++ ", .. \x7d"

end PlatformKey

end Ctap.Pin
