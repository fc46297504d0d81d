import Ctap.Pin.Ceremony

/-!
# Rehearsing ceremonies

A rehearsal runs the library against scripted partners, so that every outcome can be written down in
advance. For ceremonies the partners are a suite some of whose primitives always fail, and a device
that answers from a list of replies.

## Main definitions

* `Fault`, `Crypto.Suite.failing`: primitives that always fail.
* `Replies`: a device that answers from a list and records what it was asked.
-/

namespace Ctap.Rehearsal

open Crypto (Suite)

/-- A primitive that always fails. -/
inductive Fault where
  | authenticate
  | derive
  | encrypt
  | decrypt
deriving DecidableEq, Repr

/-- The suite with some primitives replaced by ones that always fail. -/
def failing (faults : List Fault) (suite : Suite) : Suite :=
  { suite with
    authenticate := fun key message =>
      if .authenticate ∈ faults then .error (.invalidKeyLength 32 0)
      else suite.authenticate key message
    derive := fun salt material context =>
      if .derive ∈ faults then .error .keyAgreementFailed else suite.derive salt material context
    encrypt := fun key iv data =>
      if .encrypt ∈ faults then .error .encryptionFailed else suite.encrypt key iv data
    decrypt := fun key iv data =>
      if .decrypt ∈ faults then .error .decryptionFailed else suite.decrypt key iv data }

/-- A device that answers successive requests from a list. -/
structure Replies where
  left : List (Except Error Bytes)
  /-- The requests so far, latest first. -/
  asked : List Bytes

/-- Answers a request with the next reply; when there is none left, no device is reachable. -/
def Replies.answer (r : Replies) (request : Bytes) : Except Error Bytes × Replies :=
  match r.left with
  | [] => (.error .noDevice, { r with asked := request :: r.asked })
  | reply :: left => (reply, ⟨left, request :: r.asked⟩)

end Ctap.Rehearsal
