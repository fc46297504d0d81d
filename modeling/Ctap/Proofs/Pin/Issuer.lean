import Ctap.Pin.Ceremony

/-!
# An authenticator that issues tokens

The other end of PIN ceremonies. It is written down from the protocol and not from the platform:
field numbers, contexts, lengths and initial vectors stand here as literals, and of the platform's
definitions only the primitives are used, which are digests, AES, the curve and the CBOR codec. It
keeps a record of the requests for its token.

## Main definitions

* `Issuer`: secret scalar, PIN, token and initial vectors.
* `Issuer.respond`: the answers to requests, as a device.
* `Issuer.accepts`: the codes that it accepts under its token.
-/

namespace Ctap.Pin

open Cbor (Value)

/-- An authenticator that issues a token for its PIN. -/
structure Issuer where
  secret : Nat
  pin : String
  token : Token
  /-- The initial vector of each response, by the number of requests for the token before. -/
  vector : Nat → Bytes
  length_vector (count : Nat) : (vector count).length = 16

/-- What an issuer reads in a request for its token. -/
structure TokenRequest where
  subcommand : Int
  permissions : Option Int
  relyingParty : Option String
deriving DecidableEq, Repr

namespace Issuer

/-! ### Fields -/

/-- The value of the first entry with an integer key. -/
def field? (entries : List (Value × Value)) (key : Int) : Option Value :=
  (entries.find? fun entry => entry.1.toInt? == some key).map (·.2)

/-- The integer with a key. -/
def int? (entries : List (Value × Value)) (key : Int) : Option Int :=
  (field? entries key).bind Value.toInt?

/-- The octet string with a key. -/
def bytes? (entries : List (Value × Value)) (key : Int) : Option Bytes :=
  match field? entries key with
  | some (.bytes octets) => some octets
  | _ => none

/-- The text with a key. -/
def text? (entries : List (Value × Value)) (key : Int) : Option String :=
  match field? entries key with
  | some (.text characters) => some characters
  | _ => none

/-! ### Keys -/

/-- The keys of 32 octets that an issuer shares with a platform. -/
structure Keys where
  one : Bytes
  aes : Bytes
  mac : Bytes
  length_one : one.length = 32
  /-- The encryption key of version 2 has 32 octets. -/
  length_aes : aes.length = 32

/-- The keys that come of a shared coordinate: its digest, and what is derived from it for the
contexts `CTAP2 AES key` and `CTAP2 HMAC key`. -/
def Keys.ofShared (z : Bytes) : Keys where
  one := Crypto.sha256 z
  aes := Crypto.hkdf (Bytes.zeros 32) z
    [0x43, 0x54, 0x41, 0x50, 0x32, 0x20, 0x41, 0x45, 0x53, 0x20, 0x6B, 0x65, 0x79]
  mac := Crypto.hkdf (Bytes.zeros 32) z
    [0x43, 0x54, 0x41, 0x50, 0x32, 0x20, 0x48, 0x4D, 0x41, 0x43, 0x20, 0x6B, 0x65, 0x79]
  length_one := Crypto.length_sha256 _
  length_aes := Crypto.length_hkdf ..

/-- The fields of the key with two coordinates, for key agreement on P-256. -/
def keyFields (x y : Bytes) : List (Value × Value) :=
  [(.unsigned 1, .unsigned 2), (.unsigned 3, .negative 24), (.negative 0, .unsigned 1),
    (.negative 1, .bytes x), (.negative 2, .bytes y)]

/-- The key that an issuer shows. -/
def publicKey (issuer : Issuer) : Value :=
  let point := Crypto.P256.multiply issuer.secret Crypto.P256.generator
  .map (keyFields (Bytes.ofNat 32 point.1) (Bytes.ofNat 32 point.2))

/-- The keys shared with the platform that shows a key. -/
def keys? (issuer : Issuer) : Value → Option Keys
  | .map entries => do
    let x ← bytes? entries (-2)
    let y ← bytes? entries (-3)
    if int? entries 1 = some 2 ∧ int? entries (-1) = some 1 ∧ x.length = 32 ∧ y.length = 32 ∧
        Crypto.P256.onCurve (Bytes.toNat x) (Bytes.toNat y) then
      let shared := Crypto.P256.multiply issuer.secret (Bytes.toNat x, Bytes.toNat y)
      return .ofShared (Bytes.ofNat 32 shared.1)
    else none
  | _ => none

/-! ### Encryption -/

/-- Decrypts whole blocks. Version 1 has a zero initial vector, version 2 has it in front. -/
def Keys.decrypt (keys : Keys) (version : Int) (sealed : Bytes) : Bytes :=
  if version = 1 then
    Crypto.Cbc.decrypt (Crypto.Aes.decryptBlock (.ofKey keys.one)) (Bytes.zeros 16) sealed
  else
    Crypto.Cbc.decrypt (Crypto.Aes.decryptBlock (.ofKey keys.aes)) (sealed.take 16) (sealed.drop 16)

/-- Encrypts whole blocks. -/
def Keys.encrypt (keys : Keys) (version : Int) (vector octets : Bytes) : Bytes :=
  if version = 1 then
    Crypto.Cbc.encrypt (Crypto.Aes.encryptBlock (.ofKey keys.one)) (Bytes.zeros 16) octets
  else
    vector ++ Crypto.Cbc.encrypt (Crypto.Aes.encryptBlock (.ofKey keys.aes)) vector octets

/-! ### Responses -/

/-- Half the digest of a PIN. -/
def halfDigest (pin : String) : Bytes := (Crypto.sha256 (Cbor.textOctets pin)).take 16

/-- What becomes of a request with a PIN: the token if the half digests agree, and status 0x31
otherwise. -/
def verdict (issuer : Issuer) (pin : String) : Except Error Token :=
  if halfDigest pin = halfDigest issuer.pin then .ok issuer.token else .error (.ctapStatus 0x31)

/-- A response with one field, after the status of a success. -/
def success (key : UInt64) (value : Value) : Bytes :=
  0x00 :: (Value.map [(.unsigned key, value)]).encode

/-- The response to a request for the token: the encrypted token, or status 0x31 if the half digest
in the request is another one. The request is recorded in both cases. -/
def issue? (issuer : Issuer) (version subcommand : Int) (entries : List (Value × Value))
    (log : List TokenRequest) : Option (Bytes × List TokenRequest) := do
  let keys ← issuer.keys? (← field? entries 3)
  let sealed ← bytes? entries 6
  let response :=
    if keys.decrypt version sealed = halfDigest issuer.pin then
      success 2 (.bytes (keys.encrypt version (issuer.vector log.length) issuer.token.octets))
    else [0x31]
  return (response, log ++ [⟨subcommand, int? entries 9, text? entries 10⟩])

/-- The response to a request: subcommand 2 asks for the key, subcommands 5 and 9 for the token. -/
def answer? (issuer : Issuer) (entries : List (Value × Value)) (log : List TokenRequest) :
    Option (Bytes × List TokenRequest) := do
  let version ← int? entries 1
  let subcommand ← int? entries 2
  if version = 1 ∨ version = 2 then
    if subcommand = 2 then return (success 1 issuer.publicKey, log)
    else if subcommand = 5 ∨ subcommand = 9 then issuer.issue? version subcommand entries log
    else none
  else none

/-- The issuer as a device. Its state is the record of requests, and whatever it cannot read gets
status 0x12. -/
def respond (issuer : Issuer) : Device (List TokenRequest)
  | log, 0x06 :: body =>
    match Value.decode? body with
    | some (.map entries) =>
      match issuer.answer? entries log with
      | some (response, log) => (.ok response, log)
      | none => (.ok [0x12], log)
    | _ => (.ok [0x12], log)
  | log, _ => (.ok [0x12], log)

/-- Whether a code is the one of a message under the token: its first 16 octets in version 1, and
all in version 2. -/
def accepts (issuer : Issuer) (version : Int) (message code : Bytes) : Bool :=
  let mac := Crypto.hmac issuer.token.octets message
  code == if version = 1 then mac.take 16 else mac

end Issuer

end Ctap.Pin
