import Ctap.Pin.CoseKey
import Ctap.Pin.Protocol

/-!
# PIN ceremonies

A platform first agrees on keys with an authenticator and can then ask for tokens with a PIN. The
keys are kept for all requests of one session. Requests and responses are octet strings; how they
travel is up to the device, which is a function from a request to a response and its next state.

## Main definitions

* `Session`: protocol and keys.
* `Session.open`: key agreement with a device.
* `Session.pinToken`, `Session.permissionsToken`: tokens for a PIN.
* `Session.authenticate`: the code of a message under a token.
-/

namespace Ctap.Pin

open Cbor (IntMap)
open Crypto (Suite)

/-- The command of all requests in a ceremony. -/
def clientPin : UInt8 := 0x06

/-- The status of a success. -/
def statusOk : UInt8 := 0x00

namespace Subcommand

/-- Asks for the public point of the authenticator. -/
def getKeyAgreement : Int64 := 0x02

/-- Asks for a token. -/
def getPinToken : Int64 := 0x05

/-- Asks for a token with permissions. -/
def getTokenWithPermissions : Int64 := 0x09

end Subcommand

namespace RequestKey

/-- The protocol version. -/
def protocol : Int64 := 0x01

/-- The subcommand. -/
def subcommand : Int64 := 0x02

/-- The public point of the platform. -/
def keyAgreement : Int64 := 0x03

/-- The encrypted digest of the PIN. -/
def pinHashEnc : Int64 := 0x06

/-- The permissions of the token. -/
def permissions : Int64 := 0x09

/-- The relying party that the permissions are for. -/
def relyingParty : Int64 := 0x0A

end RequestKey

namespace ResponseKey

/-- The public point of the authenticator. -/
def keyAgreement : Int64 := 0x01

/-- The encrypted token. -/
def token : Int64 := 0x02

end ResponseKey

/-- A device that takes requests: its response, or an error, and its next state. -/
abbrev Device (δ : Type) : Type := δ → Bytes → Except Error Bytes × δ

/-- The octets of a request. -/
def requestOctets (parameters : IntMap) : Bytes := clientPin :: parameters.encode

/-- The map in a response. A status other than success is an error of its own. -/
def parseResponse : Bytes → Except Error IntMap
  | [] => .error (.invalidCbor "empty response")
  | status :: body => if status = statusOk then IntMap.ofBytes body else .error (.ctapStatus status)

/-- Sends a request and reads the response. -/
def ask {δ : Type} (device : Device δ) (state : δ) (parameters : IntMap) :
    Except Error IntMap × δ :=
  let answer := device state (requestOctets parameters)
  (answer.1 >>= parseResponse, answer.2)

/-- Protocol and keys of a platform and an authenticator. -/
structure Session where
  protocol : Protocol
  key : PlatformKey
deriving DecidableEq, Repr

namespace Session

/-- The request for the public point of the authenticator. -/
def keyAgreementRequest (version : UInt8) : IntMap :=
  IntMap.empty
    |>.insertInt RequestKey.protocol (Int64.ofNat version.toNat)
    |>.insertInt RequestKey.subcommand Subcommand.getKeyAgreement

/-- The keys shared with the authenticator whose public point is in a response. -/
def keyOfResponse (suite : Suite) (response : IntMap) : Except Error PlatformKey := do
  let map ← response.getMap ResponseKey.keyAgreement
  let peer ← parseCoseKey map
  liftCrypto (PlatformKey.agree suite peer)

/-- Agrees on keys with a device. An unknown version sends no request. -/
def «open» {δ : Type} (suite : Suite) (version : UInt8) (device : Device δ) (state : δ) :
    Except Error Session × δ :=
  match Protocol.ofVersion version with
  | .error e => (.error (.crypto e), state)
  | .ok protocol =>
    let answer := ask device state (keyAgreementRequest version)
    (answer.1 >>= fun response => (keyOfResponse suite response).map (⟨protocol, ·⟩), answer.2)

/-- The first half of the digest of a PIN. -/
def pinHash (suite : Suite) (pin : String) : Bytes :=
  (suite.digest (Cbor.textOctets pin)).take 16

/-- The part that all token requests have in common. -/
def tokenRequest (s : Session) (subcommand : Int64) (pinHashEnc : Bytes) : IntMap :=
  IntMap.empty
    |>.insertInt RequestKey.protocol (Int64.ofNat s.protocol.version.toNat)
    |>.insertInt RequestKey.subcommand subcommand
    |>.insert RequestKey.keyAgreement (coseKey s.key.publicPoint).toValue
    |>.insertBytes RequestKey.pinHashEnc pinHashEnc

/-- The token in a response. -/
def tokenOfResponse (s : Session) (suite : Suite) (response : IntMap) : Except Error Token := do
  let encrypted ← response.getBytes ResponseKey.token
  let octets ← liftCrypto (s.protocol.decrypt suite s.key encrypted)
  liftCrypto (Token.ofBytes octets)

/-- Asks a device for a token with a request built from the encrypted digest of the PIN. If
encryption fails, nothing is sent. -/
def requestToken {δ : Type} (s : Session) (suite : Suite) (pin : String)
    (build : Bytes → IntMap) (source : Entropy) (device : Device δ) (state : δ) :
    Except Error Token × Entropy × δ :=
  let encrypted := s.protocol.encryptDrawing suite s.key (pinHash suite pin) source
  match encrypted.1 with
  | .error e => (.error (.crypto e), encrypted.2, state)
  | .ok pinHashEnc =>
    let answer := ask device state (build pinHashEnc)
    (answer.1 >>= s.tokenOfResponse suite, encrypted.2, answer.2)

/-- A token for a PIN. -/
def pinToken {δ : Type} (s : Session) (suite : Suite) (pin : String) (source : Entropy)
    (device : Device δ) (state : δ) : Except Error Token × Entropy × δ :=
  s.requestToken suite pin (s.tokenRequest Subcommand.getPinToken) source device state

/-- A token for a PIN with permissions, which may be limited to a relying party. -/
def permissionsToken {δ : Type} (s : Session) (suite : Suite) (pin : String) (permissions : UInt8)
    (relyingParty : Option String) (source : Entropy) (device : Device δ) (state : δ) :
    Except Error Token × Entropy × δ :=
  let build (pinHashEnc : Bytes) :=
    (s.tokenRequest Subcommand.getTokenWithPermissions pinHashEnc)
      |>.insertInt RequestKey.permissions (Int64.ofNat permissions.toNat)
      |>.insertText? RequestKey.relyingParty relyingParty
  s.requestToken suite pin build source device state

/-- The code of a message under a token. -/
def authenticate (s : Session) (suite : Suite) (token : Token) (message : Bytes) :
    Except Error Bytes :=
  liftCrypto (s.protocol.authenticate suite (.token token) message)

end Session

end Ctap.Pin
