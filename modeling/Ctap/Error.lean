import Ctap.Crypto.Error
import Ctap.Link.Error

/-!
# Errors seen by callers of an authenticator

A failure below is passed on with its own text; the other causes belong to the exchange as a whole.
-/

namespace Ctap

/-- Causes of failure when a request is relayed to an authenticator. -/
inductive Error where
  | crypto (cause : Crypto.Error)
  | link (cause : Link.Error)
  | timeout
  | noDevice
  /-- The authenticator answered with a status other than success. -/
  | ctapStatus (status : UInt8)
  /-- A response body has not the structure that its command defines. -/
  | invalidCbor (reason : String)
  | cancelled
  | other (reason : String)
deriving DecidableEq, Repr, Inhabited

/-- The text of an error; a failure below keeps its own. -/
def Error.message : Error → String
  | .crypto cause => cause.message
  | .link cause => cause.message
  | .timeout => "Operation timed out"
  | .noDevice => "No authenticator available"
  | .ctapStatus status => "CTAP command failed with status " ++ Hex.word 2 status.toNat
  | .invalidCbor reason => "Invalid CBOR: " ++ reason
  | .cancelled => "Request cancelled"
  | .other reason => reason

/-- The name of the cause, without its details; a failure below has its own after the name of its
layer. -/
def Error.name : Error → String
  | .crypto cause => "Crypto." ++ cause.name
  | .link cause => "Transport." ++ cause.name
  | .timeout => "Timeout"
  | .noDevice => "NoDevice"
  | .ctapStatus _ => "CtapStatus"
  | .invalidCbor _ => "InvalidCbor"
  | .cancelled => "Cancelled"
  | .other _ => "Other"

/-- A result of the link, seen by a caller of the authenticator. -/
def liftLink {α : Type} : Except Link.Error α → Except Error α
  | .ok a => .ok a
  | .error e => .error (.link e)

/-- A result of a cryptographic operation, seen by a caller of the authenticator. -/
def liftCrypto {α : Type} : Except Crypto.Error α → Except Error α
  | .ok a => .ok a
  | .error e => .error (.crypto e)

end Ctap
