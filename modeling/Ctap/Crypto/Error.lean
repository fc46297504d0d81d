/-!
# Errors of the cryptographic operations

Each cause has one text. Lengths are reported as found, so that a caller can tell a short key from a
ragged message.
-/

namespace Ctap.Crypto

/-- Causes of failure in key agreement, encryption and authentication. -/
inductive Error where
  /-- A point is not on the curve or not written in the expected form. -/
  | invalidPublicKey
  /-- A key, coordinate or token has the wrong length. -/
  | invalidKeyLength (expected actual : Nat)
  | invalidLength (actual : Nat) (reason : String)
  | decryptionFailed
  | encryptionFailed
  | keyAgreementFailed
  | unsupportedPinProtocol (version : UInt8)
  /-- A COSE key is not an elliptic curve key of the expected kind. -/
  | invalidCoseKey
deriving DecidableEq, Repr, Inhabited

/-- The text of a cryptographic error. -/
def Error.message : Error → String
  | .invalidPublicKey => "Invalid public key"
  | .invalidKeyLength expected actual =>
    "Invalid key length: expected " ++ toString expected ++ ", got " ++ toString actual
  | .invalidLength actual reason => "Invalid input length " ++ toString actual ++ ": " ++ reason
  | .decryptionFailed => "Decryption failed"
  | .encryptionFailed => "Encryption failed"
  | .keyAgreementFailed => "ECDH key agreement failed"
  | .unsupportedPinProtocol version =>
    "Unsupported PIN/UV auth protocol version " ++ toString version.toNat
  | .invalidCoseKey => "Invalid COSE key format"

/-- The name of the cause, without its details. -/
def Error.name : Error → String
  | .invalidPublicKey => "InvalidPublicKey"
  | .invalidKeyLength .. => "InvalidKeyLength"
  | .invalidLength .. => "InvalidLength"
  | .decryptionFailed => "DecryptionFailed"
  | .encryptionFailed => "EncryptionFailed"
  | .keyAgreementFailed => "KeyAgreementFailed"
  | .unsupportedPinProtocol _ => "UnsupportedPinProtocol"
  | .invalidCoseKey => "InvalidCoseKey"

end Ctap.Crypto
