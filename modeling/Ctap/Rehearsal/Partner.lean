import Ctap.Ble.Authenticator
import Ctap.Card.Authenticator
import Ctap.Hid.Authenticator
import Ctap.Rehearsal.Puppet
import Ctap.Rehearsal.Station
import Ctap.Rehearsal.Transcript

/-!
# Devices of a rehearsal

The devices that a gateway relays to: scripted ones, and authenticators of all three kinds on
scripted links. Whatever a device does is entered into the transcript.

## Main definitions

* `Partner`: a device with its name.
* `Partner.enter`, `Partner.advance`, `Partner.drop`, `Partner.cancel`: what can be done with it.
-/

namespace Ctap.Rehearsal

/-- The inner life of a device. -/
inductive Kind where
  | puppet (p : Puppet)
  | hid (s : Station Hid.HidAuthenticator Hid.Request Hid.Call)
  | ble (s : Station Ble.BleAuthenticator Ble.Request Ble.Call)
  | card (s : Station Card.CardAuthenticator Card.Request Card.Exchange)

/-- A device of a rehearsal. -/
structure Partner where
  name : String
  kind : Kind

namespace Partner

/-- The link of a device, if it has one. -/
def link? (p : Partner) : Option ScriptedLink :=
  match p.kind with
  | .puppet _ => none
  | .hid s => some s.link
  | .ble s => some s.link
  | .card s => some s.link

/-- What the link of a device recorded in between. -/
def entriesSince (before after : Partner) : List Entry :=
  match before.link?, after.link? with
  | some b, some a => newEntries after.name b a
  | _, _ => []

/-- A caller hands over a request. The nonce is used if a handshake is needed. -/
def enter (p : Partner) (now : Time) (caller : Caller) (request nonce : Bytes) :
    Partner × List Entry :=
  match p.kind with
  | .puppet q =>
    ({ p with kind := .puppet (q.enter now caller request) }, [⟨now, p.name, .asked request⟩])
  | .hid s => ({ p with kind := .hid (s.enter caller ⟨.cbor, request, nonce⟩) }, [])
  | .ble s => ({ p with kind := .ble (s.enter caller ⟨.msg, request⟩) }, [])
  | .card s => ({ p with kind := .card (s.enter caller ⟨request⟩) }, [])

/-- A caller goes on at an instant. `size` bounds the octets of its request. -/
def advance (p : Partner) (size : Nat) (now : Time) (caller : Caller) :
    Progress (Except Error Bytes) × Partner :=
  match p.kind with
  | .puppet q => let r := q.advance now caller; (r.1, { p with kind := .puppet r.2 })
  | .hid s => let r := s.advance size now caller; (r.1, { p with kind := .hid r.2 })
  | .ble s => let r := s.advance size now caller; (r.1, { p with kind := .ble r.2 })
  | .card s => let r := s.advance size now caller; (r.1, { p with kind := .card r.2 })

/-- A caller is dropped. -/
def drop (p : Partner) (caller : Caller) : Partner :=
  match p.kind with
  | .puppet q => { p with kind := .puppet (q.drop caller) }
  | .hid s => { p with kind := .hid (s.drop caller) }
  | .ble s => { p with kind := .ble (s.drop caller) }
  | .card s => { p with kind := .card (s.drop caller) }

/-- The device is asked to give up the request in progress. -/
def cancel (p : Partner) (now : Time) : Partner × List Entry :=
  match p.kind with
  | .puppet _ => (p, [⟨now, p.name, .cancelled⟩])
  | .hid s =>
    let after := { p with kind := .hid (s.cancel now).2 }
    (after, entriesSince p after)
  | .ble s =>
    let after := { p with kind := .ble (s.cancel now).2 }
    (after, entriesSince p after)
  | .card s =>
    let after := { p with kind := .card (s.cancel now).2 }
    (after, entriesSince p after)

end Partner

end Ctap.Rehearsal
