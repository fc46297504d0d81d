import Ctap.Link.Error

/-!
# BLE frames

A message is written to the control point as a first frame with command and length, followed by
continuations numbered from 0 to 127 and again from 0. Frames are at most as long as the control
point and never padded.

## Main definitions

* `Command`: the commands of the BLE framing.
* `validatePacketSize`: the control point lengths that are permitted.
* `packetize`: the frames of a message, or the reason why there are none.
-/

namespace Ctap.Ble

/-- The shortest control point length. -/
def minPacketSize : Nat := 20

/-- The longest control point length. -/
def maxPacketSize : Nat := 512

/-- The longest payload that the length field can name. -/
def maxMessageSize : Nat := 65535

/-- How many notifications are held for a reader. -/
def notificationDepth : Nat := 16

/-- The identifiers of the service and of its characteristics. -/
structure Identifiers where
  service : String
  controlPoint : String
  status : String
  controlPointLength : String
  /-- The characteristic that holds the set of supported revisions. -/
  revisionBitfield : String
  revision : String

/-- The identifiers in use. -/
def identifiers : Identifiers where
  service := "0000fffd-0000-1000-8000-00805f9b34fb"
  controlPoint := "f1d0fff1-deaa-ecee-b42f-c9ba7ed623bb"
  status := "f1d0fff2-deaa-ecee-b42f-c9ba7ed623bb"
  controlPointLength := "f1d0fff3-deaa-ecee-b42f-c9ba7ed623bb"
  revisionBitfield := "f1d0fff4-deaa-ecee-b42f-c9ba7ed623bb"
  revision := "00002a28-0000-1000-8000-00805f9b34fb"

/-- Commands of the BLE framing. -/
inductive Command where
  | ping
  | keepalive
  | msg
  | cancel
  | error
deriving DecidableEq, Repr, Inhabited

namespace Command

/-- The value of a command; the high bit is always set. -/
def toByte : Command → UInt8
  | ping => 0x81
  | keepalive => 0x82
  | msg => 0x83
  | cancel => 0xBE
  | error => 0xBF

/-- All commands in the order of their values. -/
def all : List Command := [ping, keepalive, msg, cancel, error]

/-- The command with a value. -/
def ofByte? (value : UInt8) : Option Command := all.find? (·.toByte == value)

theorem ofByte?_toByte (c : Command) : ofByte? c.toByte = some c := by cases c <;> rfl

end Command

/-- Accepts a control point length in the permitted range; others are a fault of the device. -/
def validatePacketSize (size : Nat) : Except Link.Error Nat :=
  if minPacketSize ≤ size ∧ size ≤ maxPacketSize then .ok size else .error (.invalidPacketSize size)

/-- The sequence number after `seq`: after 127 comes 0. -/
def nextSeq (seq : UInt8) : UInt8 := if seq = 0x7F then 0 else seq + 1

/-- Continuations of the given pieces, numbered from `seq`. -/
def continuations : UInt8 → List Bytes → List Bytes
  | _, [] => []
  | seq, piece :: rest => (seq :: piece) :: continuations (nextSeq seq) rest

/-- The frames of a message that fits its length field. -/
def messageFrames (command : Command) (payload : Bytes) (packetSize : Nat) : List Bytes :=
  (command.toByte :: Bytes.ofUInt16 (UInt16.ofNat payload.length) ++
      payload.take (packetSize - 3)) ::
    continuations 0 (Bytes.chunks (packetSize - 1) (payload.drop (packetSize - 3)))

/-- The frames of a message, none longer than the packet size. -/
def packetize (command : Command) (payload : Bytes) (packetSize : Nat) :
    Except Link.Error (List Bytes) :=
  match validatePacketSize packetSize with
  | .error e => .error e
  | .ok size =>
    if maxMessageSize < payload.length then .error (.messageTooLarge payload.length)
    else .ok (messageFrames command payload size)

end Ctap.Ble
