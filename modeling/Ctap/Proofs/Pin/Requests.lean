import Ctap.Proofs.Cbor.Canonical
import Ctap.Proofs.Pin.Agreement

/-!
# Requests are in canonical form

Authenticators refuse maps that are not in canonical form, and maps keep the order in which they
were built. Whatever is asked for, under both protocols, a session hands over the octet of the
command and one map in canonical form, with nothing behind it: one such request to agree on keys,
and one for every token. If the PIN cannot be encrypted, it hands over nothing.

## Main definitions

* `IsRequest`: the octets of requests in canonical form.
* `recorded`: a device that keeps what it was given.
* `Inquiry`: what is asked for with a PIN.
* `requests`: what a session hands over from key agreement on.

## Main results

* `Session.open_recorded`: key agreement.
* `Inquiry.make_recorded`: inquiries, one by one.
* `requests_are_canonical`: each of them, and all in a row.
-/

namespace Ctap

/-! ### Lengths of ciphertexts -/

namespace Crypto

open Aes (blockSize)

/-- A suite makes less than `2^63` octets of at most one block, so that they are in memory. -/
def Suite.FitsMemory (suite : Suite) : Prop :=
  ∀ key iv data sealed, iv.length = blockSize → data.length ≤ blockSize →
    suite.encrypt key iv data = .ok sealed → sealed.length < 2 ^ 63

/-- AES keeps lengths. -/
theorem Suite.fitsMemory_standard (scalar : Nat) : (Suite.standard scalar).FitsMemory := by
  intro key iv data sealed hiv hshort hsealed
  have hcheck : checkCbc key data = .ok () := by
    change aesCbcEncrypt key iv data = _ at hsealed
    rw [aesCbcEncrypt] at hsealed
    split at hsealed
    · cases hsealed
    · assumption
  rw [checkCbc] at hcheck
  split_ifs at hcheck with hwhole hkey
  have hdata : blockSize ∣ data.length := Nat.dvd_of_mod_eq_zero (not_not.1 hwhole)
  rw [(Suite.chained_standard scalar hkey).encrypt hiv hdata] at hsealed
  cases hsealed
  rw [((Aes.cipher key hkey).cbc_decrypt_encrypt hiv hdata).1]
  exact Nat.lt_of_le_of_lt hshort (by decide)

/-- At most one block is encrypted as a whole, or combined with the encrypted initial vector. -/
theorem Suite.FitsMemory.stealing {suite : Suite} (h : suite.FitsMemory) {key iv data body : Bytes}
    (hiv : iv.length = blockSize) (hshort : data.length ≤ blockSize)
    (hbody : Stealing.encrypt (suite.encrypt key) iv data = .ok body) : body.length < 2 ^ 63 := by
  rw [Stealing.encrypt] at hbody
  by_cases hwhole : data.length % blockSize = 0
  · rw [if_pos hwhole] at hbody
    exact h key iv data body hiv hshort hbody
  · have hless : data.length < blockSize := by
      refine Nat.lt_of_le_of_ne hshort fun hfull => hwhole ?_
      rw [hfull, Nat.mod_self]
    rw [if_neg hwhole, if_pos hless, Stealing.mask] at hbody
    cases hpad : suite.encrypt key (Bytes.zeros blockSize) iv with
    | error e =>
      rw [hpad] at hbody
      cases hbody
    | ok pad =>
      rw [hpad] at hbody
      obtain rfl : Bytes.xor data pad = body := Except.ok.inj hbody
      rw [Bytes.length_xor]
      exact Nat.lt_of_le_of_lt (Nat.le_trans (Nat.min_le_left ..) hshort) (by decide)

end Crypto

namespace Pin

open Cbor (Canonical IntMap Precedes Shortest joinEntries)
open Crypto (Suite)
open Crypto.Aes (blockSize)

/-- What a protocol makes of at most one block has a length that fits a head. -/
theorem Protocol.length_encrypt_lt {suite : Suite} (hsuite : suite.FitsMemory) {p : Protocol}
    {key : PlatformKey} {iv plaintext sealed : Bytes} (hiv : iv.length = p.ivLength)
    (hshort : plaintext.length ≤ blockSize) (h : p.encrypt suite key iv plaintext = .ok sealed) :
    sealed.length < UInt64.size := by
  cases p with
  | one =>
    rw [encrypt] at h
    cases hcheck : checkAligned plaintext with
    | error e =>
      rw [hcheck] at h
      cases h
    | ok _ =>
      rw [hcheck] at h
      exact Nat.lt_trans (hsuite _ _ _ _ (Bytes.length_zeros _) hshort h) (by decide)
  | two =>
    cases hbody : Crypto.Stealing.encrypt (suite.encrypt key.twoAesKey) iv plaintext with
    | error e =>
      simp only [encrypt, hbody] at h
      cases h
    | ok body =>
      rw [two_encrypt_eq hbody] at h
      have hless := hsuite.stealing hiv hshort hbody
      rw [← Except.ok.inj h, List.length_append, hiv]
      simp only [ivLength, blockSize, UInt64.size]
      omega

/-! ### Requests in canonical form -/

/-- The octets of a request: the command, and one map in canonical form with different keys. -/
def IsRequest (octets : Bytes) : Prop :=
  ∃ head entries, octets = 0x06 :: (head ++ joinEntries entries) ∧
    Shortest .map entries.length head ∧
    (∀ entry ∈ entries, Canonical entry.1 ∧ Canonical entry.2) ∧
    (entries.map Prod.fst).Pairwise Precedes ∧ (entries.map Prod.fst).Nodup

/-- Nothing is behind the map: an item in canonical form that a request begins with is all of it. -/
theorem IsRequest.eq_nil {octets item more : Bytes} (h : IsRequest octets) (hitem : Canonical item)
    (hoctets : octets = 0x06 :: (item ++ more)) : more = [] := by
  obtain ⟨head, entries, rfl, hhead, hentries, hkeys, -⟩ := h
  have hmap : Canonical (head ++ joinEntries entries) :=
    .map hhead (fun entry he => (hentries entry he).1) (fun entry he => (hentries entry he).2) hkeys
  have hbody : (head ++ joinEntries entries) ++ [] = item ++ more := by
    rw [List.append_nil]
    exact (List.cons.inj hoctets).2
  exact (hmap.eq_of_append hitem hbody).2.symm

/-- A map with canonical values and ascending keys makes a request. -/
theorem isRequest_requestOctets {m : IntMap} (hlength : m.written.length < UInt64.size)
    (hvalues : m.HasCanonicalValues) (hkeys : (m.written.map Prod.fst).Pairwise Precedes) :
    IsRequest (requestOctets m) := by
  refine ⟨Cbor.head .map m.written.length, m.written, ?_, Cbor.shortest_head .map hlength,
    IntMap.canonical_written hvalues, hkeys, hkeys.imp Precedes.ne⟩
  rw [requestOctets, IntMap.encode_eq]
  rfl

/-- The labels of a public point ascend, the negative ones last. -/
theorem canonical_coseKey (point : Crypto.PublicPoint) :
    Canonical (coseKey point).toValue.encode := by
  have hx : point.x.length < UInt64.size := by
    rw [point.length_x]
    decide
  have hy : point.y.length < UInt64.size := by
    rw [point.length_y]
    decide
  refine IntMap.canonical_encode (show 5 < UInt64.size by decide) ?_ ?_
  · exact IntMap.HasCanonicalValues.empty.insertInt _ _ |>.insertInt _ _ |>.insertInt _ _
      |>.insertBytes _ hx |>.insertBytes _ hy
  · exact show [[0x01], [0x03], [0x20], [0x21], [0x22]].Pairwise Precedes by decide

namespace Session

/-- **The request for key agreement is in canonical form.** -/
theorem isRequest_keyAgreement (version : UInt8) :
    IsRequest (requestOctets (keyAgreementRequest version)) := by
  refine isRequest_requestOctets (show 2 < UInt64.size by decide) ?_ ?_
  · exact IntMap.HasCanonicalValues.empty.insertInt _ _ |>.insertInt _ _
  · exact show [[0x01], [0x02]].Pairwise Precedes by decide

example : requestOctets (keyAgreementRequest 2) = [0x06, 0xA2, 0x01, 0x02, 0x02, 0x02] := by decide

variable {sealed : Bytes} (s : Session)

theorem hasCanonicalValues_tokenRequest (subcommand : Int64) (h : sealed.length < UInt64.size) :
    (s.tokenRequest subcommand sealed).HasCanonicalValues :=
  IntMap.HasCanonicalValues.empty.insertInt _ _ |>.insertInt _ _ |>.insert _ (canonical_coseKey _)
    |>.insertBytes _ h

/-- **A request for a token is in canonical form.** -/
theorem isRequest_token (subcommand : Int64) (h : sealed.length < UInt64.size) :
    IsRequest (requestOctets (s.tokenRequest subcommand sealed)) :=
  isRequest_requestOctets (show 4 < UInt64.size by decide)
    (s.hasCanonicalValues_tokenRequest subcommand h)
    (show [[0x01], [0x02], [0x03], [0x06]].Pairwise Precedes by decide)

/-- **So is one with permissions**, with a relying party at its end or without. -/
theorem isRequest_permissions (permissions : UInt8) {relyingParty : Option String}
    (hparty : ∀ text ∈ relyingParty, (Cbor.textOctets text).length < UInt64.size)
    (h : sealed.length < UInt64.size) :
    IsRequest (requestOctets (s.permissionsRequest permissions relyingParty sealed)) := by
  have hvalues : (s.permissionsRequest permissions relyingParty sealed).HasCanonicalValues :=
    (s.hasCanonicalValues_tokenRequest _ h).insertInt _ _ |>.insertText? _ hparty
  cases relyingParty with
  | none =>
    exact isRequest_requestOctets (show 5 < UInt64.size by decide) hvalues
      (show [[0x01], [0x02], [0x03], [0x06], [0x09]].Pairwise Precedes by decide)
  | some text =>
    exact isRequest_requestOctets (show 6 < UInt64.size by decide) hvalues
      (show [[0x01], [0x02], [0x03], [0x06], [0x09], [0x0A]].Pairwise Precedes by decide)

end Session

/-! ### What a device is given -/

/-- A device that keeps the requests that it is given, in order. -/
def recorded {δ : Type} (device : Device δ) : Device (δ × List Bytes) := fun s request =>
  let answer := device s.1 request
  (answer.1, answer.2, s.2 ++ [request])

/-- What is asked for with a PIN. -/
inductive Inquiry where
  | pinToken (pin : String)
  /-- A token with permissions, which may be limited to a relying party. -/
  | permissionsToken (pin : String) (permissions : UInt8) (relyingParty : Option String)

namespace Inquiry

/-- The PIN. -/
def pin : Inquiry → String
  | pinToken pin | permissionsToken pin _ _ => pin

/-- The name of a relying party is in memory, so that it has less than `2^64` octets. -/
def Fits : Inquiry → Prop
  | pinToken _ => True
  | permissionsToken _ _ relyingParty =>
    ∀ text ∈ relyingParty, (Cbor.textOctets text).length < UInt64.size

/-- The map of the request, from the encrypted digest of the PIN. -/
def build (s : Session) : Inquiry → Bytes → IntMap
  | pinToken _ => s.tokenRequest Subcommand.getPinToken
  | permissionsToken _ permissions relyingParty => s.permissionsRequest permissions relyingParty

/-- Makes the inquiry in a session. -/
def make {δ : Type} (s : Session) (suite : Suite) (source : Entropy) (device : Device δ)
    (state : δ) : Inquiry → Except Error Token × Entropy × δ
  | pinToken pin => s.pinToken suite pin source device state
  | permissionsToken pin permissions relyingParty =>
    s.permissionsToken suite pin permissions relyingParty source device state

/-- The encrypted digest of the PIN. -/
def sealed (s : Session) (suite : Suite) (source : Entropy) (i : Inquiry) :
    Except Crypto.Error Bytes :=
  (s.protocol.encryptDrawing suite s.key (Session.pinHash suite i.pin) source).1

variable {suite : Suite} {s : Session} {source : Entropy} {i : Inquiry} {δ : Type}

theorem isRequest_build (hsuite : suite.FitsMemory) (hi : i.Fits) {octets : Bytes}
    (h : i.sealed s suite source = .ok octets) :
    IsRequest (requestOctets (i.build s octets)) := by
  have hlength : octets.length < UInt64.size :=
    Protocol.length_encrypt_lt hsuite (source.length_draw _) (List.length_take_le ..) h
  cases i with
  | pinToken pin => exact s.isRequest_token _ hlength
  | permissionsToken pin permissions relyingParty =>
    exact s.isRequest_permissions permissions hi hlength

theorem make_eq (device : Device δ) (state : δ) : i.make s suite source device state =
    s.requestToken suite i.pin (i.build s) source device state := by
  cases i <;> rfl

theorem make_of_error {e : Crypto.Error} (h : i.sealed s suite source = .error e)
    (device : Device δ) (state : δ) : i.make s suite source device state =
      (.error (.crypto e), (source.draw s.protocol.ivLength).2, state) := by
  rw [sealed] at h
  simp only [make_eq, Session.requestToken, h]
  rfl

theorem make_of_ok {octets : Bytes} (h : i.sealed s suite source = .ok octets)
    (device : Device δ) (state : δ) : i.make s suite source device state =
      ((ask device state (i.build s octets)).1 >>= s.tokenOfResponse suite,
        (source.draw s.protocol.ivLength).2, (ask device state (i.build s octets)).2) := by
  rw [sealed] at h
  simp only [make_eq, Session.requestToken, h]
  rfl

/-- **What an inquiry hands to a device.** -/
theorem make_recorded (hsuite : suite.FitsMemory) (hi : i.Fits) (device : Device δ) (state : δ)
    (log : List Bytes) :
    (∀ e, i.sealed s suite source = .error e →
      i.make s suite source (recorded device) (state, log) =
        (.error (.crypto e), (source.draw s.protocol.ivLength).2, state, log)) ∧
    ∀ octets, i.sealed s suite source = .ok octets → ∃ request, IsRequest request ∧
      i.make s suite source (recorded device) (state, log) =
        ((i.make s suite source device state).1, (i.make s suite source device state).2.1,
          (i.make s suite source device state).2.2, log ++ [request]) := by
  refine ⟨fun e h => make_of_error h _ _, fun octets h => ?_⟩
  refine ⟨_, isRequest_build hsuite hi h, ?_⟩
  rw [make_of_ok h, make_of_ok h]
  rfl

end Inquiry

namespace Session

variable {suite : Suite} {δ : Type}

/-- **What key agreement hands to a device**: one request, or nothing if the version is unknown. -/
theorem open_recorded (suite : Suite) (version : UInt8) (device : Device δ) (state : δ)
    (log : List Bytes) : ∃ sent,
    Session.open suite version (recorded device) (state, log) =
      ((Session.open suite version device state).1, (Session.open suite version device state).2,
        log ++ sent) ∧
    (∀ request ∈ sent, IsRequest request) ∧
    sent.length = if version = 1 ∨ version = 2 then 1 else 0 := by
  rcases hversion : Protocol.ofVersion version with e | protocol
  · have hunknown : ¬ (version = 1 ∨ version = 2) := by
      rintro (rfl | rfl) <;> cases hversion
    refine ⟨[], ?_, List.forall_mem_nil _, (if_neg hunknown).symm⟩
    simp only [Session.open, hversion, List.append_nil]
  · have hknown : version = 1 ∨ version = 2 := by
      rw [Protocol.ofVersion] at hversion
      split_ifs at hversion with hone htwo
      · exact .inl hone
      · exact .inr htwo
    refine ⟨[requestOctets (keyAgreementRequest version)], ?_,
      List.forall_mem_singleton.2 (isRequest_keyAgreement version), (if_pos hknown).symm⟩
    simp only [Session.open, hversion]
    rfl

/-- Makes inquiries one after the other, also after one that failed. -/
def makeAll (s : Session) (suite : Suite) (device : Device δ) :
    List Inquiry → Entropy → δ → Entropy × δ
  | [], source, state => (source, state)
  | i :: more, source, state =>
    let answer := i.make s suite source device state
    s.makeAll suite device more answer.2.1 answer.2.2

/-- **Inquiries hand nothing but requests to a device.** -/
theorem makeAll_recorded (hsuite : suite.FitsMemory) (s : Session) (device : Device δ)
    {inquiries : List Inquiry} (hfit : ∀ i ∈ inquiries, i.Fits) (source : Entropy) (state : δ)
    {log : List Bytes} (hlog : ∀ request ∈ log, IsRequest request) :
    ∀ request ∈ (s.makeAll suite (recorded device) inquiries source (state, log)).2.2,
      IsRequest request := by
  induction inquiries generalizing source state log with
  | nil => exact hlog
  | cons i more ih =>
    obtain ⟨hi, hmore⟩ := List.forall_mem_cons.1 hfit
    obtain ⟨hfails, hsends⟩ :=
      @Inquiry.make_recorded suite s source i δ hsuite hi device state log
    rcases hsealed : i.sealed s suite source with e | octets
    · rw [makeAll, hfails e hsealed]
      exact ih hmore _ _ hlog
    · obtain ⟨request, hrequest, hmake⟩ := hsends octets hsealed
      rw [makeAll, hmake]
      refine ih hmore _ _ (List.forall_mem_append.2 ⟨hlog, ?_⟩)
      exact List.forall_mem_singleton.2 hrequest

end Session

/-- The requests that a device is given for key agreement and then for inquiries. -/
def requests {δ : Type} (suite : Suite) (version : UInt8) (inquiries : List Inquiry)
    (source : Entropy) (device : Device δ) (state : δ) : List Bytes :=
  let opened := Session.open suite version (recorded device) (state, [])
  match opened.1 with
  | .error _ => opened.2.2
  | .ok s => (s.makeAll suite (recorded device) inquiries source opened.2).2.2

/-- **Requests are in canonical form**, whatever the device, and for every suite whose ciphertexts
of one block are in memory. Key agreement hands over one request, or nothing if the version is
unknown. In a session with any protocol and keys, an inquiry with any PIN, permissions and relying
party, and with any octets drawn for its encryption, hands over one request if the PIN can be
encrypted, and otherwise nothing. So nothing but requests is handed over from key agreement on; and
nothing is behind the item that comes after the octet of the command. -/
theorem requests_are_canonical {suite : Suite} (hsuite : suite.FitsMemory) {δ : Type}
    (device : Device δ) :
    (∀ version state log, ∃ sent,
      Session.open suite version (recorded device) (state, log) =
        ((Session.open suite version device state).1, (Session.open suite version device state).2,
          log ++ sent) ∧
      (∀ request ∈ sent, IsRequest request) ∧
      sent.length = if version = 1 ∨ version = 2 then 1 else 0) ∧
    (∀ (s : Session) (i : Inquiry), i.Fits → ∀ source state log,
      (∀ e, i.sealed s suite source = .error e →
        i.make s suite source (recorded device) (state, log) =
          (.error (.crypto e), (source.draw s.protocol.ivLength).2, state, log)) ∧
      ∀ octets, i.sealed s suite source = .ok octets → ∃ request, IsRequest request ∧
        i.make s suite source (recorded device) (state, log) =
          ((i.make s suite source device state).1, (i.make s suite source device state).2.1,
            (i.make s suite source device state).2.2, log ++ [request])) ∧
    (∀ version inquiries source state, (∀ i ∈ inquiries, i.Fits) →
      ∀ request ∈ requests suite version inquiries source device state, IsRequest request) ∧
    ∀ octets item more, IsRequest octets → Canonical item → octets = 0x06 :: (item ++ more) →
      more = [] := by
  refine ⟨fun version state log => Session.open_recorded suite version device state log,
    fun s i hi source state log => Inquiry.make_recorded hsuite hi device state log,
    fun version inquiries source state hfit => ?_, fun octets item more => IsRequest.eq_nil⟩
  obtain ⟨sent, hopen, hsent, -⟩ := Session.open_recorded suite version device state []
  rw [requests, hopen]
  split
  · exact hsent
  · exact Session.makeAll_recorded hsuite _ device hfit source _ hsent

/-- An inquiry about two permissions for one relying party. -/
def Inquiry.limited : Inquiry := .permissionsToken "123456" 3 (some "example.com")

/-- A session under protocol two. -/
def Session.whole : Session := ⟨.two, Protocol.zeroKey⟩

/-- A session under protocol one whose key is too short for AES. -/
def Session.cut : Session := ⟨.one, { Protocol.zeroKey with oneKey := [0] }⟩

/-- The inquiry is handed over in the first session and not in the second; and a ceremony that goes
on with it, and with an inquiry without permissions, hands over nothing but requests. -/
theorem requests_are_canonical_when_limited :
    (∃ request, IsRequest request ∧
      (∀ item more, Canonical item → request = 0x06 :: (item ++ more) → more = []) ∧
      (Inquiry.limited.make .whole (.standard 2) ⟨[]⟩
        (recorded Issuer.three.respond) ([], [])).2.2.2 = [request]) ∧
    (Inquiry.limited.make .cut (.standard 2) ⟨[]⟩
        (recorded Issuer.three.respond) ([], [])).2.2.2 = [] ∧
    ∀ request ∈ requests (.standard 2) 2 [.limited, .pinToken "123456"] ⟨[]⟩
      Issuer.three.respond [], IsRequest request := by
  have hfits : Inquiry.limited.Fits := by
    intro text htext
    cases htext
    decide +kernel
  obtain ⟨-, hinquiry, hrun, hwhole⟩ :=
    requests_are_canonical (Crypto.Suite.fitsMemory_standard 2) Issuer.three.respond
  refine ⟨?_, ?_, hrun 2 _ _ _ ?_⟩
  · obtain ⟨-, hsends⟩ := hinquiry .whole .limited hfits ⟨[]⟩ [] []
    have hsealed : (Inquiry.limited.sealed .whole (.standard 2) ⟨[]⟩).isOk = true := by
      decide +kernel
    rcases h : Inquiry.limited.sealed .whole (.standard 2) ⟨[]⟩ with e | octets
    · rw [h] at hsealed
      cases hsealed
    · obtain ⟨request, hrequest, hmake⟩ := hsends octets h
      refine ⟨request, hrequest, fun item more => hwhole request item more hrequest, ?_⟩
      rw [hmake]
      rfl
  · obtain ⟨hfails, -⟩ := hinquiry .cut .limited hfits ⟨[]⟩ [] []
    rw [hfails (.invalidKeyLength 32 1) (by decide +kernel)]
  · exact List.forall_mem_cons.2 ⟨hfits, List.forall_mem_singleton.2 trivial⟩

end Pin

end Ctap
