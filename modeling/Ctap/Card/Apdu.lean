import Ctap.Link.Error

/-!
# Card commands and status words

A request travels as the command `80 10`, either whole in one extended command or in a chain of
short commands whose class byte is `90` except for the last. A response ends in a two-octet status
word.

## Main definitions

* `StatusWord.split`: data and status word of a response.
* `extendedCommand`, `chainedCommands`: the commands that carry a payload.
-/

namespace Ctap.Card

/-- The longest payload of an extended command. -/
def maxExtendedPayload : Nat := 65535

/-- The longest data field in a chain. -/
def chainChunkSize : Nat := 254

/-- How often a card may announce more data for one response. -/
def maxContinuations : Nat := maxExtendedPayload / 256 + 1

/-- Selects the applet. -/
def selectApplet : Bytes :=
  [0x00, 0xA4, 0x04, 0x00, 0x08, 0xA0, 0x00, 0x00, 0x06, 0x47, 0x2F, 0x00, 0x01, 0x00]

/-- Asks for the next part of a response. -/
def getResponse : Bytes := [0x00, 0xC0, 0x00, 0x00, 0x00]

/-- A status word. -/
structure StatusWord where
  value : UInt16
deriving DecidableEq, Repr, Inhabited

namespace StatusWord

/-- The status word of success. -/
def success : StatusWord := ⟨0x9000⟩

/-- Whether a status word is that of success. -/
def isSuccess (s : StatusWord) : Bool := s == success

/-- How much more data a card announces; words other than `61XX` announce none. -/
def moreData? (s : StatusWord) : Option UInt8 :=
  if s.value >>> 8 = 0x61 then some s.value.toUInt8 else none

/-- The data and the status word of a response. -/
def split (response : Bytes) : Except Link.Error (Bytes × StatusWord) :=
  match response.drop (response.length - 2) with
  | [hi, lo] => .ok (response.take (response.length - 2), ⟨Bytes.toUInt16 hi lo⟩)
  | _ => .error (.truncated 2 response.length)

end StatusWord

/-- One extended command with a length field of three octets and room for any response. -/
def extendedCommand (payload : Bytes) : Except Link.Error (List Bytes) :=
  if maxExtendedPayload < payload.length then .error (.messageTooLarge payload.length)
  else
    .ok [[0x80, 0x10, 0x00, 0x00, 0x00] ++ Bytes.ofUInt16 (UInt16.ofNat payload.length) ++
      payload ++ [0x00, 0x00]]

/-- Short commands for pieces of a payload: class `90` for all but the last, which has class `80`
and asks for a response. -/
def chain : List Bytes → List Bytes
  | [] => []
  | [piece] => [[0x80, 0x10, 0x00, 0x00, UInt8.ofNat piece.length] ++ piece ++ [0x00]]
  | piece :: rest => ([0x90, 0x10, 0x00, 0x00, UInt8.ofNat piece.length] ++ piece) :: chain rest

/-- A chain of short commands that carries a payload; an empty payload has a command of its own. -/
def chainedCommands (payload : Bytes) : List Bytes :=
  if payload = [] then [[0x80, 0x10, 0x00, 0x00, 0x00]]
  else chain (Bytes.chunks chainChunkSize payload)

end Ctap.Card
