import Ctap.Crypto.Stealing
import Ctap.Pin.PlatformKey

/-!
# PIN/UV protocols

Protocol one encrypts whole blocks with a zero initial vector and shortens its authentication codes
to 16 octets. Protocol two takes messages of any length, puts a fresh initial vector in front of the
ciphertext, and keeps whole codes.

## Main definitions

* `Token`: the secret that an authenticator hands out for a PIN.
* `Protocol`: the two protocols, with `encrypt`, `decrypt`, `authenticate` and `verify`.
* `Entropy`: the source of initial vectors.
-/

namespace Ctap.Pin

open Crypto (Suite)

/-- A token of 32 octets. -/
@[ext]
structure Token where
  octets : Bytes
  length_octets : octets.length = 32
deriving Repr

namespace Token

instance : DecidableEq Token := fun _ _ => decidable_of_decidable_of_iff Token.ext_iff.symm

/-- The token with the given octets; other lengths are refused. -/
def ofBytes (octets : Bytes) : Except Crypto.Error Token :=
  if h : octets.length = 32 then .ok ⟨octets, h⟩ else .error (.invalidKeyLength 32 octets.length)

/-- The text of a token, which does not show it. -/
def describe (_ : Token) : String := "PinUvToken(..)"

end Token

/-- The key of an authentication code: the shared one, or a token. -/
inductive AuthKey where
  | platform (key : PlatformKey)
  | token (token : Token)
deriving DecidableEq, Repr

/-- Random octets that are still to be drawn, followed by zeros. -/
structure Entropy where
  octets : Bytes
deriving DecidableEq, Repr, Inhabited

/-- Draws `n` octets. -/
def Entropy.draw (source : Entropy) (n : Nat) : Bytes × Entropy :=
  (Bytes.padTo n (source.octets.take n), ⟨source.octets.drop n⟩)

@[simp] theorem Entropy.length_draw (source : Entropy) (n : Nat) :
    (source.draw n).1.length = n := by
  simp only [draw, Bytes.length_padTo, List.length_take]
  omega

/-- The PIN/UV protocols. -/
inductive Protocol where
  | one
  | two
deriving DecidableEq, Repr, Inhabited

namespace Protocol

/-- The version number of a protocol. -/
def version : Protocol → UInt8
  | one => 1
  | two => 2

/-- The protocol with a version number. -/
def ofVersion (version : UInt8) : Except Crypto.Error Protocol :=
  if version = 1 then .ok one
  else if version = 2 then .ok two
  else .error (.unsupportedPinProtocol version)

theorem ofVersion_version (p : Protocol) : ofVersion p.version = .ok p := by cases p <;> rfl

/-- The length of an authentication code. -/
def macLength : Protocol → Nat
  | one => 16
  | two => 32

/-- The number of random octets that an encryption draws. -/
def ivLength : Protocol → Nat
  | one => 0
  | two => Crypto.Aes.blockSize

/-- Refuses data that is no whole number of blocks. -/
def checkAligned (data : Bytes) : Except Crypto.Error Unit :=
  if data.length % Crypto.Aes.blockSize = 0 then .ok ()
  else .error (.invalidLength data.length "PIN/UV protocol data must be a multiple of 16 bytes")

/-- Encrypts with the random octets drawn for it. -/
def encrypt (p : Protocol) (suite : Suite) (key : PlatformKey) (iv plaintext : Bytes) :
    Except Crypto.Error Bytes :=
  match p with
  | one => do
    checkAligned plaintext
    suite.encrypt key.oneKey (Bytes.zeros Crypto.Aes.blockSize) plaintext
  | two => do
    let body ← Crypto.Stealing.encrypt (suite.encrypt key.twoAesKey) iv plaintext
    return iv ++ body

/-- Decrypts. Protocol two takes the initial vector from the front of the ciphertext. -/
def decrypt (p : Protocol) (suite : Suite) (key : PlatformKey) (ciphertext : Bytes) :
    Except Crypto.Error Bytes :=
  match p with
  | one => do
    checkAligned ciphertext
    suite.decrypt key.oneKey (Bytes.zeros Crypto.Aes.blockSize) ciphertext
  | two =>
    if ciphertext.length < Crypto.Aes.blockSize then
      .error (.invalidLength ciphertext.length
        "protocol two ciphertext must start with a 16-byte IV")
    else
      Crypto.Stealing.decrypt (suite.encrypt key.twoAesKey) (suite.decrypt key.twoAesKey)
        (ciphertext.take Crypto.Aes.blockSize) (ciphertext.drop Crypto.Aes.blockSize)

/-- The octets that key an authentication code. -/
def macKey : Protocol → AuthKey → Bytes
  | one, .platform key => key.oneKey
  | two, .platform key => key.twoHmacKey
  | _, .token token => token.octets

/-- The authentication code of a message. -/
def authenticate (p : Protocol) (suite : Suite) (key : AuthKey) (message : Bytes) :
    Except Crypto.Error Bytes := do
  let mac ← suite.authenticate (p.macKey key) message
  return mac.take p.macLength

/-- Whether a code is the one of the message; a code that cannot be computed matches none. -/
def verify (p : Protocol) (suite : Suite) (key : AuthKey) (message code : Bytes) : Bool :=
  match p.authenticate suite key message with
  | .ok expected => expected == code
  | .error _ => false

/-- Draws the random octets for an encryption and encrypts. -/
def encryptDrawing (p : Protocol) (suite : Suite) (key : PlatformKey) (plaintext : Bytes)
    (source : Entropy) : Except Crypto.Error Bytes × Entropy :=
  let drawn := source.draw p.ivLength
  (p.encrypt suite key drawn.1 plaintext, drawn.2)

end Protocol

end Ctap.Pin
