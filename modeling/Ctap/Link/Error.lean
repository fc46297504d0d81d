import Ctap.Hex

/-!
# Link errors

What can go wrong while messages are cut into packets, put together again, or exchanged with an
authenticator. Each cause has one text. Framing errors are those caused by malformed data on the
link; they end the exchange in which they arise.
-/

namespace Ctap.Link

/-- Causes of failure on a link. -/
inductive Error where
  /-- A packet is shorter than its header or otherwise malformed. -/
  | invalidPacket (reason : String)
  | channelMismatch (expected actual : UInt32)
  | invalidSequence (expected actual : UInt8)
  /-- An initial packet carries a command that is not awaited. -/
  | unexpectedCommand (command : UInt8)
  /-- A payload exceeds the limits of the framing. -/
  | messageTooLarge (length : Nat)
  | truncated (expected actual : Nat)
  | nonceMismatch
  | deviceError (code : UInt8)
  | apduStatus (status : UInt16)
  | invalidPacketSize (size : Nat)
  | io (reason : String)
  | disconnected
  | timeout
  | invalidArgument (reason : String)
deriving DecidableEq, Repr, Inhabited

/-- The text of a link error. -/
def Error.message : Error → String
  | .invalidPacket reason => "Invalid packet: " ++ reason
  | .channelMismatch expected actual =>
    "Channel mismatch: expected " ++ Hex.word 8 expected.toNat ++ ", got " ++
      Hex.word 8 actual.toNat
  | .invalidSequence expected actual =>
    "Invalid sequence: expected " ++ toString expected.toNat ++ ", got " ++ toString actual.toNat
  | .unexpectedCommand command => "Unexpected command " ++ Hex.word 2 command.toNat
  | .messageTooLarge length => "Message too large: " ++ toString length ++ " bytes"
  | .truncated expected actual =>
    "Truncated message: expected " ++ toString expected ++ " bytes, got " ++ toString actual
  | .nonceMismatch => "INIT nonce mismatch"
  | .deviceError code => "Device returned error code " ++ Hex.word 2 code.toNat
  | .apduStatus status => "APDU status " ++ Hex.word 4 status.toNat
  | .invalidPacketSize size => "Invalid packet size " ++ toString size
  | .io reason => "I/O error: " ++ reason
  | .disconnected => "Link disconnected"
  | .timeout => "Operation timed out"
  | .invalidArgument reason => "Invalid argument: " ++ reason

/-- The name of the cause, without its details. -/
def Error.name : Error → String
  | .invalidPacket _ => "InvalidPacket"
  | .channelMismatch .. => "ChannelMismatch"
  | .invalidSequence .. => "InvalidSequence"
  | .unexpectedCommand _ => "UnexpectedCommand"
  | .messageTooLarge _ => "MessageTooLarge"
  | .truncated .. => "Truncated"
  | .nonceMismatch => "NonceMismatch"
  | .deviceError _ => "DeviceError"
  | .apduStatus _ => "ApduStatus"
  | .invalidPacketSize _ => "InvalidPacketSize"
  | .io _ => "Io"
  | .disconnected => "Disconnected"
  | .timeout => "Timeout"
  | .invalidArgument _ => "InvalidArgument"

/-- Whether the error comes from malformed data on the link. -/
def Error.isFraming : Error → Bool
  | .invalidPacket _ | .channelMismatch .. | .invalidSequence .. | .unexpectedCommand _
  | .messageTooLarge _ | .truncated .. | .nonceMismatch => true
  | _ => false

end Ctap.Link
