import Ctap.Proofs.Cbor.RoundTrip
import Ctap.Proofs.Pin.Encryption
import Ctap.Proofs.Pin.Issuer

/-!
# Ceremonies with an issuer

A session with an issuer obtains its token exactly with its PIN. The proof follows a ceremony: both
sides derive the same keys, each decrypts what the other encrypts, every request and every response
is read as it was written, and what is left is the decision of the issuer. Of the platform's suite
only the laws of its primitives are used.

## Main definitions

* `Suite.Lawful`: the laws of the primitives.
* `Issuer.Serves`: what a session obtains from an issuer.

## Main results

* `PlatformKey.agree_eq`, `Issuer.keys?_coseKey`: the keys of both sides.
* `Protocol.encrypt_for_issuer`, `Protocol.decrypt_from_issuer`: encryption in both directions.
* `Session.requestToken_eq`: a request for a token.
* `Session.agrees_with_issuer`: a whole ceremony.
-/

namespace Ctap

namespace Crypto

/-- Whether a suite has the primitives that the protocols name, and agrees on keys with a scalar. It
may do as it likes with keys of other lengths, with data that is no whole number of blocks, and with
points that are not on the curve. -/
structure Suite.Lawful (suite : Suite) (scalar : Nat) : Prop where
  digest (message : Bytes) : suite.digest message = sha256 message
  authenticate (key message : Bytes) : suite.authenticate key message = .ok (hmac key message)
  derive (salt material context : Bytes) :
    suite.derive salt material context = .ok (hkdf salt material context)
  /-- AES is chained under keys of 32 octets. -/
  chained {key : Bytes} (hkey : key.length = 32) :
    (Aes.cipher key (.inr hkey)).Chained (suite.encrypt key) (suite.decrypt key)
  agree {peer : PublicPoint} {point : Nat × Nat} (hpeer : peer.toNats? = some point) :
    suite.agree peer = .ok ⟨publicPointOf scalar, Bytes.ofNat 32 (P256.multiply scalar point).1⟩

theorem Suite.lawful_standard (scalar : Nat) : (Suite.standard scalar).Lawful scalar where
  digest _ := rfl
  authenticate _ _ := rfl
  derive _ _ _ := rfl
  chained hkey := Suite.chained_standard scalar (.inr hkey)
  agree hpeer := by simp only [Suite.standard, hpeer]

end Crypto

namespace Pin

open Cbor (IntMap Value maxDepth)
open Crypto (BlockCipher PublicPoint Suite publicPointOf)
open Crypto.Aes (blockSize)

variable {issuer : Issuer} {suite : Suite} {scalar : Nat} {log : List TokenRequest} {p : Protocol}

/-! ### Keys -/

/-- The keys of an issuer as a platform holds them. -/
def Issuer.Keys.platform (keys : Issuer.Keys) (point : PublicPoint) : PlatformKey :=
  ⟨point, keys.one, keys.aes, keys.mac⟩

/-- The session of a platform that holds the keys of an issuer. -/
abbrev Issuer.Keys.session (keys : Issuer.Keys) (p : Protocol) (point : PublicPoint) : Session :=
  ⟨p, keys.platform point⟩

/-- The keys of a platform are those that an issuer derives from the same coordinate. -/
theorem PlatformKey.agree_eq (laws : suite.Lawful scalar) {peer : PublicPoint} {point : Nat × Nat}
    (h : peer.toNats? = some point) : PlatformKey.agree suite peer =
      .ok ((Issuer.Keys.ofShared (Bytes.ofNat 32 (Crypto.P256.multiply scalar point).1)).platform
        (publicPointOf scalar)) := by
  simp only [PlatformKey.agree, PlatformKey.ofAgreement, deriveKey, laws.agree h, laws.digest,
    laws.derive]
  rfl

theorem coseKey_toValue (point : PublicPoint) :
    (coseKey point).toValue = .map (Issuer.keyFields point.x point.y) := rfl

theorem Issuer.publicKey_eq (issuer : Issuer) :
    issuer.publicKey = (coseKey (publicPointOf issuer.secret)).toValue := rfl

theorem parseCoseKey_coseKey (point : PublicPoint) : parseCoseKey (coseKey point) = .ok point := by
  have hpoint : PublicPoint.ofCoordinates point.x point.y = .ok point := by
    rw [PublicPoint.ofCoordinates, dif_pos point.length_x, dif_pos point.length_y]
  change liftCrypto (PublicPoint.ofCoordinates point.x point.y) = _
  rw [hpoint]
  rfl

theorem toNats?_eq_some {own : PublicPoint} {point : Nat × Nat} (h : own.toNats? = some point) :
    Crypto.P256.onCurve (Bytes.toNat own.x) (Bytes.toNat own.y) = true ∧
      point = (Bytes.toNat own.x, Bytes.toNat own.y) := by
  rw [PublicPoint.toNats?] at h
  split_ifs at h with hcurve
  exact ⟨hcurve, (Option.some.inj h).symm⟩

/-- An issuer derives its keys from the point of the platform. -/
theorem Issuer.keys?_coseKey {own : PublicPoint} {point : Nat × Nat}
    (h : own.toNats? = some point) : issuer.keys? (coseKey own).toValue =
      some (.ofShared (Bytes.ofNat 32 (Crypto.P256.multiply issuer.secret point).1)) := by
  obtain ⟨hcurve, rfl⟩ := toNats?_eq_some h
  have hx : bytes? (keyFields own.x own.y) (-2) = some own.x := rfl
  have hy : bytes? (keyFields own.x own.y) (-3) = some own.y := rfl
  rw [coseKey_toValue, keys?, hx, hy]
  exact if_pos ⟨rfl, rfl, own.length_x, own.length_y, hcurve⟩

/-! ### Encryption -/

namespace Issuer.Keys

variable (keys : Keys)

/-- AES with the key of version 1. -/
def oneCipher : BlockCipher := Crypto.Aes.cipher keys.one (.inr keys.length_one)

/-- AES with the encryption key of version 2. -/
def twoCipher : BlockCipher := Crypto.Aes.cipher keys.aes (.inr keys.length_aes)

theorem oneCipher_chained (laws : suite.Lawful scalar) (point : PublicPoint) :
    keys.oneCipher.Chained (suite.encrypt (keys.platform point).oneKey)
      (suite.decrypt (keys.platform point).oneKey) :=
  laws.chained keys.length_one

theorem twoCipher_chained (laws : suite.Lawful scalar) (point : PublicPoint) :
    keys.twoCipher.Chained (suite.encrypt (keys.platform point).twoAesKey)
      (suite.decrypt (keys.platform point).twoAesKey) :=
  laws.chained keys.length_aes

theorem decrypt_two {vector : Bytes} (h : vector.length = 16) (body : Bytes) :
    keys.decrypt Protocol.two.version.toNat (vector ++ body) =
      Crypto.Cbc.decrypt keys.twoCipher.decrypt vector body := by
  rw [decrypt, if_neg (by decide), List.take_left' h, List.drop_left' h]
  rfl

theorem encrypt_two (vector octets : Bytes) :
    keys.encrypt Protocol.two.version.toNat vector octets =
      vector ++ Crypto.Cbc.encrypt keys.twoCipher.encrypt vector octets := by
  rw [encrypt, if_neg (by decide)]
  rfl

end Issuer.Keys

namespace Protocol

/-- **An issuer decrypts what a platform encrypts.** -/
theorem encrypt_for_issuer (laws : suite.Lawful scalar) (keys : Issuer.Keys) (point : PublicPoint)
    {iv plaintext : Bytes} (hiv : iv.length = p.ivLength)
    (hwhole : blockSize ∣ plaintext.length) : ∃ sealed,
      p.encrypt suite (keys.platform point) iv plaintext = .ok sealed ∧
        sealed.length = p.ivLength + plaintext.length ∧
        keys.decrypt p.version.toNat sealed = plaintext := by
  cases p with
  | one =>
    obtain ⟨hlength, hundone⟩ := keys.oneCipher.cbc_decrypt_encrypt (Bytes.length_zeros _) hwhole
    exact ⟨_, one_encrypt_eq (keys.oneCipher_chained laws point) hwhole iv,
      hlength.trans (Nat.zero_add _).symm, hundone⟩
  | two =>
    obtain ⟨hlength, hundone⟩ := keys.twoCipher.cbc_decrypt_encrypt hiv hwhole
    have hsealed := (keys.twoCipher_chained laws point).encrypt_whole hiv hwhole
    refine ⟨_, two_encrypt_eq hsealed, ?_, ?_⟩
    · rw [List.length_append, hlength, hiv]
    · rw [keys.decrypt_two hiv, hundone]

/-- **A platform decrypts what an issuer encrypts.** -/
theorem decrypt_from_issuer (laws : suite.Lawful scalar) (keys : Issuer.Keys) (point : PublicPoint)
    {vector octets : Bytes} (hvector : vector.length = blockSize)
    (hwhole : blockSize ∣ octets.length) :
    (keys.encrypt p.version.toNat vector octets).length = p.ivLength + octets.length ∧
      p.decrypt suite (keys.platform point)
        (keys.encrypt p.version.toNat vector octets) = .ok octets := by
  cases p with
  | one =>
    obtain ⟨hlength, hundone⟩ := keys.oneCipher.cbc_decrypt_encrypt (Bytes.length_zeros _) hwhole
    refine ⟨hlength.trans (Nat.zero_add _).symm, ?_⟩
    exact (one_decrypt_eq (keys.oneCipher_chained laws point) (hlength.symm ▸ hwhole)).trans
      (congrArg Except.ok hundone)
  | two =>
    obtain ⟨hlength, hundone⟩ := keys.twoCipher.cbc_decrypt_encrypt hvector hwhole
    rw [keys.encrypt_two]
    constructor
    · rw [List.length_append, hlength, hvector]
      rfl
    · rw [two_decrypt_eq hvector, (keys.twoCipher_chained laws point).decrypt_whole hvector
        (hlength.symm ▸ hwhole), hundone]

end Protocol

/-! ### Requests and responses -/

theorem plain_coseKey (point : PublicPoint) : (coseKey point).toValue.Plain (maxDepth - 1) := by
  have hx : point.x.length < UInt64.size := by
    rw [point.length_x]
    decide
  have hy : point.y.length < UInt64.size := by
    rw [point.length_y]
    decide
  exact IntMap.Plain.empty.insertInt _ _ |>.insertInt _ _ |>.insertInt _ _ |>.insertBytes _ hx
    |>.insertBytes _ hy |>.toValue (show 5 < UInt64.size by decide)

/-- What an issuer answers to a request that it can read. -/
theorem ask_issuer {m : IntMap} {entries : List (Value × Value)} {response : Bytes}
    {after : List TokenRequest} (hplain : m.toValue.Plain maxDepth)
    (hentries : m.toValue = .map entries)
    (hanswer : issuer.answer? entries log = some (response, after)) :
    ask issuer.respond log m = (parseResponse response, after) := by
  have hdecode : Value.decode? m.encode = some (.map entries) := hentries ▸ hplain.decode?_encode
  have hrespond : issuer.respond log (requestOctets m) = (.ok response, after) := by
    simp only [requestOctets, clientPin, Issuer.respond, hdecode, hanswer]
  rw [ask, hrespond]
  rfl

theorem parseResponse_success (key : UInt64) {value : Value} (h : value.Plain (maxDepth - 1)) :
    parseResponse (Issuer.success key value) = .ok ⟨[(key.toNat, value)]⟩ := by
  have hplain : (Value.map [(.unsigned key, value)]).Plain maxDepth :=
    .map (show 1 < UInt64.size by decide) (List.forall_mem_singleton.2 (.unsigned key))
      (List.forall_mem_singleton.2 h)
  rw [Issuer.success, parseResponse, if_pos (by rfl), IntMap.ofBytes, hplain.decode?_encode]
  rfl

/-! ### Key agreement -/

namespace Session

theorem keyOfResponse_coseKey (suite : Suite) (shown : PublicPoint) :
    keyOfResponse suite ⟨[(1, (coseKey shown).toValue)]⟩ =
      liftCrypto (PlatformKey.agree suite shown) := by
  have hmap : IntMap.getMap ⟨[(1, (coseKey shown).toValue)]⟩ ResponseKey.keyAgreement =
      .ok (coseKey shown) := rfl
  rw [keyOfResponse, hmap]
  simp only [bind, Except.bind, parseCoseKey_coseKey]

/-- **Key agreement succeeds**, and leaves the keys that come of the shared coordinate. -/
theorem open_eq (laws : suite.Lawful scalar) {peer : Nat × Nat}
    (hpeer : (publicPointOf issuer.secret).toNats? = some peer) :
    Session.open suite p.version issuer.respond log =
      (.ok ((Issuer.Keys.ofShared (Bytes.ofNat 32 (Crypto.P256.multiply scalar peer).1)).session p
        (publicPointOf scalar)), log) := by
  have hplain : (keyAgreementRequest p.version).toValue.Plain maxDepth :=
    IntMap.Plain.empty.insertInt _ _ |>.insertInt _ _ |>.toValue (show 2 < UInt64.size by decide)
  have hanswer : issuer.answer? [(.unsigned 1, .ofInt p.version.toNat), (.unsigned 2, .unsigned 2)]
      log = some (Issuer.success 1 issuer.publicKey, log) := by
    cases p <;> rfl
  have hask : ask issuer.respond log (keyAgreementRequest p.version) =
      (.ok ⟨[(1, (coseKey (publicPointOf issuer.secret)).toValue)]⟩, log) := by
    rw [ask_issuer hplain (by cases p <;> rfl) hanswer, issuer.publicKey_eq,
      parseResponse_success 1 (plain_coseKey _)]
    rfl
  simp only [Session.open, Protocol.ofVersion_version, hask, bind, Except.bind,
    keyOfResponse_coseKey, PlatformKey.agree_eq laws hpeer, liftCrypto, Except.map]

/-! ### Tokens -/

variable {keys : Issuer.Keys} {point : PublicPoint} {subcommand : Int} {more : List (Value × Value)}

/-- The entries of a request for a token, with more behind them. -/
def tokenEntries (p : Protocol) (subcommand : Int) (point : PublicPoint) (sealed : Bytes)
    (more : List (Value × Value)) : List (Value × Value) :=
  (.unsigned 1, .ofInt p.version.toNat) :: (.unsigned 2, .ofInt subcommand) ::
    (.unsigned 3, (coseKey point).toValue) :: (.unsigned 6, .bytes sealed) :: more

/-- The issuer decrypts the half digest in a request and answers accordingly. -/
theorem answer?_tokenEntries (hsubcommand : subcommand = 5 ∨ subcommand = 9)
    (hkeys : issuer.keys? (coseKey point).toValue = some keys) (sealed : Bytes)
    (log : List TokenRequest) :
    issuer.answer? (tokenEntries p subcommand point sealed more) log =
      some (if keys.decrypt p.version.toNat sealed = Issuer.halfDigest issuer.pin then
          Issuer.success 2 (.bytes
            (keys.encrypt p.version.toNat (issuer.vector log.length) issuer.token.octets))
        else [0x31], log ++ [⟨subcommand, Issuer.int? more 9, Issuer.text? more 10⟩]) := by
  have hissue : issuer.answer? (tokenEntries p subcommand point sealed more) log =
      issuer.issue? p.version.toNat subcommand (tokenEntries p subcommand point sealed more)
        log := by
    rcases hsubcommand with rfl | rfl <;> cases p <;> rfl
  have hfield : Issuer.field? (tokenEntries p subcommand point sealed more) 3 =
      some (coseKey point).toValue := rfl
  have hsealed : Issuer.bytes? (tokenEntries p subcommand point sealed more) 6 = some sealed := rfl
  have hpermissions : Issuer.int? (tokenEntries p subcommand point sealed more) 9 =
      Issuer.int? more 9 := rfl
  have hparty : Issuer.text? (tokenEntries p subcommand point sealed more) 10 =
      Issuer.text? more 10 := rfl
  rw [hissue, Issuer.issue?, hfield, hsealed, hpermissions, hparty]
  simp only [Option.bind_eq_bind, Option.bind_some, hkeys, Option.pure_def]

/-- A platform takes the token from a response. -/
theorem tokenOfResponse_eq (laws : suite.Lawful scalar) {vector : Bytes}
    (hvector : vector.length = blockSize) (token : Token) :
    (keys.session p point).tokenOfResponse suite
      ⟨[(2, .bytes (keys.encrypt p.version.toNat vector token.octets))]⟩ = .ok token := by
  have hwhole : blockSize ∣ token.octets.length := token.length_octets ▸ by decide
  have htoken : Token.ofBytes token.octets = .ok token := dif_pos token.length_octets
  have hbytes : IntMap.getBytes ⟨[(2, .bytes (keys.encrypt p.version.toNat vector token.octets))]⟩
      ResponseKey.token = .ok (keys.encrypt p.version.toNat vector token.octets) := rfl
  rw [tokenOfResponse, hbytes]
  simp only [bind, Except.bind, (p.decrypt_from_issuer laws keys point hvector hwhole).2,
    liftCrypto, htoken]

/-- A platform that reads the response of the issuer learns its decision. -/
theorem tokenOfResponse_verdict (laws : suite.Lawful scalar) (pin : String) {vector : Bytes}
    (hvector : vector.length = blockSize) :
    (parseResponse
        (if Issuer.halfDigest pin = Issuer.halfDigest issuer.pin then
          Issuer.success 2 (.bytes (keys.encrypt p.version.toNat vector issuer.token.octets))
        else [0x31]) >>=
      (keys.session p point).tokenOfResponse suite) =
        issuer.verdict pin := by
  by_cases hagree : Issuer.halfDigest pin = Issuer.halfDigest issuer.pin
  · have hwhole : blockSize ∣ issuer.token.octets.length :=
      issuer.token.length_octets ▸ by decide
    have hlength : (keys.encrypt p.version.toNat vector issuer.token.octets).length <
        UInt64.size := by
      rw [(p.decrypt_from_issuer laws keys point hvector hwhole).1, issuer.token.length_octets]
      cases p <;> decide
    rw [Issuer.verdict, if_pos hagree, if_pos hagree, parseResponse_success 2 (.bytes hlength)]
    exact tokenOfResponse_eq laws hvector issuer.token
  · rw [Issuer.verdict, if_neg hagree, if_neg hagree]
    rfl

/-- **A request for a token gets what the issuer decides**, and is recorded as it was made. -/
theorem requestToken_eq (laws : suite.Lawful scalar) (hsubcommand : subcommand = 5 ∨ subcommand = 9)
    (hkeys : issuer.keys? (coseKey point).toValue = some keys) {build : Bytes → IntMap}
    (hbuild : ∀ sealed : Bytes, sealed.length < UInt64.size →
      (build sealed).toValue.Plain maxDepth ∧
        (build sealed).toValue = .map (tokenEntries p subcommand point sealed more))
    (pin : String) (source : Entropy) :
    (keys.session p point).requestToken suite pin build source
      issuer.respond log = (issuer.verdict pin, (source.draw p.ivLength).2,
        log ++ [⟨subcommand, Issuer.int? more 9, Issuer.text? more 10⟩]) := by
  have hlength : (Issuer.halfDigest pin).length = 16 := by
    rw [Issuer.halfDigest, List.length_take, Crypto.length_sha256]
    rfl
  have hwhole : blockSize ∣ (Issuer.halfDigest pin).length := ⟨1, hlength⟩
  obtain ⟨sealed, hencrypt, hsealed, hdecrypt⟩ := p.encrypt_for_issuer laws keys point
    (source.length_draw p.ivLength) hwhole
  have hhash : pinHash suite pin = Issuer.halfDigest pin := congrArg (List.take 16) (laws.digest _)
  have hdrawing : p.encryptDrawing suite (keys.platform point) (pinHash suite pin) source =
      (.ok sealed, (source.draw p.ivLength).2) := by
    rw [hhash]
    exact congrArg (·, _) hencrypt
  obtain ⟨hplain, hentries⟩ := hbuild sealed (by rw [hsealed, hlength]; cases p <;> decide)
  have hask := ask_issuer hplain hentries (answer?_tokenEntries hsubcommand hkeys sealed log)
  simp only [hdecrypt] at hask
  simp only [requestToken, hdrawing, hask,
    tokenOfResponse_verdict laws pin (issuer.length_vector log.length)]

end Session

/-! ### Ceremonies -/

/-- What a session obtains from an issuer. -/
structure Issuer.Serves (issuer : Issuer) (suite : Suite) (s : Session) : Prop where
  /-- The issuer derives the keys of the session from the point of the platform. -/
  keys : ∃ keys, issuer.keys? (coseKey s.key.publicPoint).toValue = some keys ∧
    s.key = keys.platform s.key.publicPoint
  /-- A token is issued for the PIN, and the request has no permissions. -/
  pinToken (pin : String) (source : Entropy) (log : List TokenRequest) :
    s.pinToken suite pin source issuer.respond log =
      (issuer.verdict pin, (source.draw s.protocol.ivLength).2, log ++ [⟨5, none, none⟩])
  /-- A token is issued for the PIN, and the request has the permissions and the relying party that
  were asked for. A text in memory has less than `2^64` octets. -/
  permissionsToken (pin : String) (permissions : UInt8) (relyingParty : Option String)
      (hparty : ∀ text ∈ relyingParty, (Cbor.textOctets text).length < UInt64.size)
      (source : Entropy) (log : List TokenRequest) :
    s.permissionsToken suite pin permissions relyingParty source issuer.respond log =
      (issuer.verdict pin, (source.draw s.protocol.ivLength).2,
        log ++ [⟨9, some permissions.toNat, relyingParty⟩])
  /-- The code of a message under the token is the only one that the issuer accepts. -/
  authenticate (message code : Bytes) :
    s.authenticate suite issuer.token message = .ok code ↔
      issuer.accepts s.protocol.version.toNat message code = true
  verify (message code : Bytes) :
    s.protocol.verify suite (.token issuer.token) message code =
      issuer.accepts s.protocol.version.toNat message code

namespace Session

variable {keys : Issuer.Keys} {point : PublicPoint}

theorem authenticate_iff_verify (s : Session) (suite : Suite) (token : Token)
    (message code : Bytes) : s.authenticate suite token message = .ok code ↔
      s.protocol.verify suite (.token token) message code = true := by
  rw [authenticate, Protocol.verify]
  cases s.protocol.authenticate suite (.token token) message with
  | ok mac => rw [liftCrypto, Except.ok.injEq, beq_iff_eq]
  | error e => exact iff_of_false nofun nofun

/-- The issuer accepts the codes that the protocol verifies. -/
theorem verify_eq_accepts (laws : suite.Lawful scalar) (p : Protocol) (message code : Bytes) :
    p.verify suite (.token issuer.token) message code =
      issuer.accepts p.version.toNat message code := by
  have hwhole : (Crypto.hmac issuer.token.octets message).take 32 =
      Crypto.hmac issuer.token.octets message :=
    List.take_of_length_le (Nat.le_of_eq (Crypto.length_hmac ..))
  cases p with
  | one =>
    simp only [Protocol.verify, Protocol.authenticate, laws.authenticate]
    exact Bool.beq_comm ..
  | two =>
    simp only [Protocol.verify, Protocol.authenticate, laws.authenticate]
    change ((Crypto.hmac issuer.token.octets message).take 32 == code) =
      (code == Crypto.hmac issuer.token.octets message)
    rw [hwhole, Bool.beq_comm]

theorem plain_tokenRequest (s : Session) (subcommand : Int64) {sealed : Bytes}
    (h : sealed.length < UInt64.size) :
    (s.tokenRequest subcommand sealed).Plain (maxDepth - 1) :=
  IntMap.Plain.empty.insertInt _ _ |>.insertInt _ _ |>.insert _ (plain_coseKey _)
    |>.insertBytes _ h

theorem pinToken_eq (laws : suite.Lawful scalar)
    (hkeys : issuer.keys? (coseKey point).toValue = some keys) (pin : String) (source : Entropy) :
    (keys.session p point).pinToken suite pin source issuer.respond log =
      (issuer.verdict pin, (source.draw p.ivLength).2, log ++ [⟨5, none, none⟩]) := by
  have hbuild (sealed : Bytes) (h : sealed.length < UInt64.size) :
      ((keys.session p point).tokenRequest Subcommand.getPinToken
          sealed).toValue.Plain maxDepth ∧
        ((keys.session p point).tokenRequest Subcommand.getPinToken sealed).toValue =
          .map (tokenEntries p 5 point sealed []) := by
    constructor
    · exact (plain_tokenRequest _ _ h).toValue (show 4 < UInt64.size by decide)
    · cases p <;> rfl
  exact requestToken_eq laws (.inl rfl) hkeys hbuild pin source

/-- The request for a token with permissions. -/
def permissionsRequest (s : Session) (permissions : UInt8) (relyingParty : Option String)
    (sealed : Bytes) : IntMap :=
  (s.tokenRequest Subcommand.getTokenWithPermissions sealed)
    |>.insertInt RequestKey.permissions (Int64.ofNat permissions.toNat)
    |>.insertText? RequestKey.relyingParty relyingParty

theorem plain_permissionsRequest (s : Session) (permissions : UInt8) {relyingParty : Option String}
    (hparty : ∀ text ∈ relyingParty, (Cbor.textOctets text).length < UInt64.size) {sealed : Bytes}
    (h : sealed.length < UInt64.size) :
    (s.permissionsRequest permissions relyingParty sealed).toValue.Plain maxDepth := by
  refine IntMap.Plain.toValue ?_ ?_
  · exact (s.plain_tokenRequest _ h).insertInt _ _ |>.insertText? _ hparty
  · cases relyingParty with
    | none => exact show 5 < UInt64.size by decide
    | some text => exact show 6 < UInt64.size by decide

/-- What a request with permissions holds behind the entries of every request. -/
def permissionEntries (permissions : UInt8) (relyingParty : Option String) :
    List (Value × Value) :=
  (.unsigned 9, .ofInt (Int64.ofNat permissions.toNat).toInt) ::
    (relyingParty.map fun text => (Value.unsigned 10, Value.text text)).toList

theorem int?_permissionEntries (permissions : UInt8) (relyingParty : Option String) :
    Issuer.int? (permissionEntries permissions relyingParty) 9 =
      some (permissions.toNat : Int) := by
  have hless := permissions.toNat_lt
  have hpermissions : (Int64.ofNat permissions.toNat).toInt = permissions.toNat :=
    Int64.toInt_ofNat_of_lt (Nat.lt_trans hless (by decide))
  change (Value.ofInt (Int64.ofNat permissions.toNat).toInt).toInt? = _
  rw [hpermissions]
  exact Value.toInt?_ofInt (by omega) (Int.ofNat_lt.2 (Nat.lt_trans hless (by decide)))

theorem text?_permissionEntries (permissions : UInt8) (relyingParty : Option String) :
    Issuer.text? (permissionEntries permissions relyingParty) 10 = relyingParty := by
  cases relyingParty <;> rfl

theorem permissionsToken_eq (laws : suite.Lawful scalar)
    (hkeys : issuer.keys? (coseKey point).toValue = some keys) (pin : String) (permissions : UInt8)
    {relyingParty : Option String}
    (hparty : ∀ text ∈ relyingParty, (Cbor.textOctets text).length < UInt64.size)
    (source : Entropy) :
    (keys.session p point).permissionsToken suite pin permissions
      relyingParty source issuer.respond log = (issuer.verdict pin, (source.draw p.ivLength).2,
        log ++ [⟨9, some permissions.toNat, relyingParty⟩]) := by
  have hbuild (sealed : Bytes) (h : sealed.length < UInt64.size) :
      ((keys.session p point).permissionsRequest permissions relyingParty
          sealed).toValue.Plain maxDepth ∧
        ((keys.session p point).permissionsRequest permissions relyingParty
          sealed).toValue =
          .map (tokenEntries p 9 point sealed (permissionEntries permissions relyingParty)) := by
    constructor
    · exact plain_permissionsRequest _ permissions hparty h
    · cases p <;> cases relyingParty <;> rfl
  have hrequest := @requestToken_eq issuer suite scalar log p keys point 9 _ laws (.inr rfl) hkeys _
    hbuild pin source
  rwa [int?_permissionEntries, text?_permissionEntries] at hrequest

end Session

/-- **A ceremony agrees with an issuer.** Whatever the scalars and over every lawful suite, if both
public points are on the curve and give both sides the same coordinate, key agreement succeeds under
both protocols. The session then obtains the token of the issuer with every PIN whose half digest is
the one of its PIN, and status 0x31 with every other; the issuer reads the subcommand, permissions
and relying party that were asked for; and it accepts exactly the codes that the session computes
under the token. -/
theorem Session.agrees_with_issuer (issuer : Issuer) {suite : Suite} {scalar : Nat}
    (laws : suite.Lawful scalar) {own shown : Nat × Nat}
    (hown : (publicPointOf scalar).toNats? = some own)
    (hshown : (publicPointOf issuer.secret).toNats? = some shown)
    (hsymmetric :
      (Crypto.P256.multiply scalar shown).1 = (Crypto.P256.multiply issuer.secret own).1)
    (p : Protocol) (log : List TokenRequest) :
    ∃ s : Session, s.protocol = p ∧
      Session.open suite p.version issuer.respond log = (.ok s, log) ∧ issuer.Serves suite s := by
  have hkeys : issuer.keys? (coseKey (publicPointOf scalar)).toValue =
      some (.ofShared (Bytes.ofNat 32 (Crypto.P256.multiply scalar shown).1)) := by
    rw [Issuer.keys?_coseKey hown, hsymmetric]
  refine ⟨_, rfl, Session.open_eq laws hshown, ⟨_, hkeys, rfl⟩, ?_, ?_, ?_, ?_⟩
  · exact fun pin source log => Session.pinToken_eq laws hkeys pin source
  · exact fun pin permissions _ hparty source log =>
      Session.permissionsToken_eq laws hkeys pin permissions hparty source
  · intro message code
    rw [Session.authenticate_iff_verify, Session.verify_eq_accepts laws]
  · exact Session.verify_eq_accepts laws p

/-- The issuer with secret scalar 3, whose PIN is 123456. -/
def Issuer.three : Issuer where
  secret := 3
  pin := "123456"
  token := ⟨List.replicate 32 0x5C, List.length_replicate⟩
  vector _ := Bytes.zeros 16
  length_vector _ := Bytes.length_zeros 16

/-- A platform with secret scalar 2 agrees with this issuer under protocol two. It obtains the token
with the PIN, for two permissions and one relying party, and status 0x31 with another PIN. -/
theorem Session.agrees_with_issuer_three : ∃ s : Session,
    Session.open (.standard 2) 2 Issuer.three.respond [] = (.ok s, []) ∧
      s.permissionsToken (.standard 2) "123456" 3 (some "example.com") ⟨[]⟩
          Issuer.three.respond [] =
        (.ok Issuer.three.token, ⟨[]⟩, [⟨9, some 3, some "example.com"⟩]) ∧
      s.pinToken (.standard 2) "654321" ⟨[]⟩ Issuer.three.respond [] =
        (.error (.ctapStatus 0x31), ⟨[]⟩, [⟨5, none, none⟩]) := by
  have hown : (publicPointOf 2).toNats? =
      some (Crypto.P256.multiply 2 Crypto.P256.generator) := by decide +kernel
  have hshown : (publicPointOf Issuer.three.secret).toNats? =
      some (Crypto.P256.multiply 3 Crypto.P256.generator) := by decide +kernel
  have hsymmetric : (Crypto.P256.multiply 2 (Crypto.P256.multiply 3 Crypto.P256.generator)).1 =
      (Crypto.P256.multiply 3 (Crypto.P256.multiply 2 Crypto.P256.generator)).1 := by
    decide +kernel
  have hright : Issuer.three.verdict "123456" = .ok Issuer.three.token := if_pos rfl
  have hwrong : Issuer.three.verdict "654321" = .error (.ctapStatus 0x31) :=
    if_neg (show Issuer.halfDigest "654321" ≠ Issuer.halfDigest "123456" by decide +kernel)
  have hparty (text : String) (h : text ∈ some "example.com") :
      (Cbor.textOctets text).length < UInt64.size := by
    cases h
    decide +kernel
  obtain ⟨s, hprotocol, hopen, hserves⟩ := Session.agrees_with_issuer Issuer.three
    (Crypto.Suite.lawful_standard 2) hown hshown hsymmetric .two []
  refine ⟨s, hopen, ?_, ?_⟩
  · rw [hserves.permissionsToken "123456" 3 (some "example.com") hparty, hprotocol, hright]
    rfl
  · rw [hserves.pinToken, hprotocol, hwrong]
    rfl

end Pin

end Ctap
