/-!
# Commands and constants of the HID framing

A command is a seven-bit value. In an initial packet it is written with the type bit set, which
tells initial packets from continuations.

## Main definitions

* `Command`, `Command.ofByte?`, `Command.toByte`, `Command.toInitialByte`: commands and their
  values.
* `ErrorCode`: the codes carried by error messages.
-/

namespace Ctap.Hid

/-- A channel number. -/
abbrev ChannelId : Type := UInt32

/-- The report size of USB HID devices. -/
def reportSize : Nat := 64

/-- The longest message that fits packets of the report size. -/
def maxMessageSize : Nat := 7609

/-- The channel on which channels are requested. -/
def broadcast : ChannelId := 0xFFFFFFFF

/-- The length of a handshake nonce. -/
def nonceSize : Nat := 8

/-- The length of a handshake answer. -/
def handshakeSize : Nat := 17

/-- The protocol version that handshake answers report. -/
def protocolVersion : UInt8 := 2

/-- Keepalive status of an authenticator at work. -/
def keepaliveProcessing : UInt8 := 0x01

/-- Keepalive status of an authenticator that waits for its user. -/
def keepaliveUserPresence : UInt8 := 0x02

namespace Capability

/-- The authenticator can draw attention to itself. -/
def wink : UInt8 := 0x01

/-- The authenticator takes CBOR requests. -/
def cbor : UInt8 := 0x04

/-- The authenticator takes no encapsulated older messages. -/
def noMessage : UInt8 := 0x08

end Capability

/-- The length of the header of an initial packet: channel, command and payload length. -/
def initialHeaderSize : Nat := 7

/-- The length of the header of a continuation: channel and sequence number. -/
def continuationHeaderSize : Nat := 5

/-- Commands of the HID framing. -/
inductive Command where
  | ping
  | msg
  | lock
  | init
  | wink
  | cbor
  | cancel
  | keepalive
  | error
deriving DecidableEq, Repr, Inhabited

namespace Command

/-- The value of a command. -/
def toByte : Command → UInt8
  | ping => 0x01
  | msg => 0x03
  | lock => 0x04
  | init => 0x06
  | wink => 0x08
  | cbor => 0x10
  | cancel => 0x11
  | keepalive => 0x3B
  | error => 0x3F

/-- The value of a command with the type bit set. -/
def toInitialByte (c : Command) : UInt8 := c.toByte ||| 0x80

/-- All commands in the order of their values. -/
def all : List Command := [ping, msg, lock, init, wink, cbor, cancel, keepalive, error]

/-- The command with a value; the type bit does not matter. -/
def ofByte? (value : UInt8) : Option Command := all.find? (·.toByte == value &&& 0x7F)

theorem ofByte?_toByte (c : Command) : ofByte? c.toByte = some c := by cases c <;> rfl

theorem ofByte?_toInitialByte (c : Command) : ofByte? c.toInitialByte = some c := by
  cases c <;> rfl

end Command

/-- Codes carried by error messages. -/
inductive ErrorCode where
  | invalidCommand
  | invalidParameter
  | invalidLength
  | invalidSequence
  | messageTimeout
  | channelBusy
  | lockRequired
  | invalidChannel
  | other
deriving DecidableEq, Repr, Inhabited

namespace ErrorCode

/-- The value of an error code. -/
def toByte : ErrorCode → UInt8
  | invalidCommand => 0x01
  | invalidParameter => 0x02
  | invalidLength => 0x03
  | invalidSequence => 0x04
  | messageTimeout => 0x05
  | channelBusy => 0x06
  | lockRequired => 0x0A
  | invalidChannel => 0x0B
  | other => 0x7F

/-- All error codes in the order of their values. -/
def all : List ErrorCode :=
  [invalidCommand, invalidParameter, invalidLength, invalidSequence, messageTimeout, channelBusy,
    lockRequired, invalidChannel, other]

/-- The error code with a value. -/
def ofByte? (value : UInt8) : Option ErrorCode := all.find? (·.toByte == value)

theorem ofByte?_toByte (e : ErrorCode) : ofByte? e.toByte = some e := by cases e <;> rfl

end ErrorCode

end Ctap.Hid
