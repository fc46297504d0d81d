import Ctap.Ble.Frame
import Ctap.Link.Conversation

/-!
# Reading answers from notifications

An answer begins with a header frame and goes on with continuations until the declared length is
reached. Keepalives are skipped before the header only. A reader that resynchronises also drops
continuations before the header: they are the tail of an answer whose reader went away.

## Main definitions

* `Header.parse`: command, declared length and data of a header frame.
* `Reader.push`: takes one frame and gives the payload once it is complete.
* `receiveMessage`: the answer at the front of a finite queue, and what stays queued.
-/

namespace Ctap.Ble

open Link (Conversation Move)

/-- The first frame of an answer. -/
structure Header where
  /-- The command of the answer, with the high bit set. -/
  command : UInt8
  length : Nat
  data : Bytes
deriving DecidableEq, Repr

/-- The fault of a frame without any octet. -/
def emptyFrame : Link.Error := .invalidPacket "empty BLE frame"

/-- The fault of a header frame whose first octet is no command. -/
def missingCommand : Link.Error := .invalidPacket "BLE response header without command bit"

/-- The fault of a header frame without its length field. -/
def shortHeader : Link.Error := .invalidPacket "BLE response header shorter than 3 bytes"

/-- Reads a header frame. An error frame is reported with its code, or 0 if it carries none. -/
def Header.parse : Bytes → Except Link.Error Header
  | [] => .error emptyFrame
  | command :: rest =>
    if command &&& 0x80 = 0 then .error missingCommand
    else if command = Command.error.toByte then .error (.deviceError (rest.getD 2 0))
    else
      match rest with
      | hi :: lo :: data => .ok ⟨command, (Bytes.toUInt16 hi lo).toNat, data⟩
      | _ => .error shortHeader

/-- Takes the frames of one answer. -/
inductive Reader where
  /-- The header has not come; `resync` says whether continuations are dropped. -/
  | awaiting (resync : Bool)
  /-- Part of the payload has come, and a continuation with number `seq` is next. -/
  | gathering (total : Nat) (data : Bytes) (seq : UInt8)
deriving DecidableEq, Repr, Inhabited

namespace Reader

/-- Whether a frame ahead of the header is passed over. -/
def skips (resync : Bool) : Bytes → Bool
  | [] => false
  | first :: _ => first == Command.keepalive.toByte || (resync && first &&& 0x80 == 0)

/-- Gives out a payload that is complete, and goes on gathering otherwise. -/
def settle (total : Nat) (data : Bytes) (seq : UInt8) : Reader × Option Bytes :=
  if data.length < total then (gathering total data seq, none) else (awaiting false, some data)

/-- Takes a frame. -/
def push : Reader → Bytes → Except Link.Error (Reader × Option Bytes)
  | awaiting resync, frame =>
    if skips resync frame then .ok (awaiting resync, none)
    else
      match Header.parse frame with
      | .error e => .error e
      | .ok header => .ok (settle header.length (header.data.take header.length) 0)
  | gathering _ _ _, [] => .error emptyFrame
  | gathering total data seq, actual :: more =>
    if actual = seq then
      .ok (settle total (data ++ more.take (total - data.length)) (nextSeq seq))
    else .error (.invalidSequence seq actual)

end Reader

/-- Reads an answer from the front of a queue that is closed at its end. Whatever was not taken
stays queued. -/
def receiveMessage : Reader → List Bytes → Except Link.Error Bytes × List Bytes
  | _, [] => (.error .disconnected, [])
  | reader, frame :: rest =>
    match reader.push frame with
    | .error e => (.error e, rest)
    | .ok (_, some payload) => (.ok payload, rest)
    | .ok (next, none) => receiveMessage next rest

/-- A message that is sent and whose answer is read, between two link operations. -/
inductive Exchange where
  | writing (frame : Bytes) (rest : List Bytes)
  | reading (reader : Reader)
  | ended (result : Except Link.Error Bytes)

namespace Exchange

/-- Sends a message and reads the answer. -/
def start (command : Command) (payload : Bytes) (packetSize : Nat) : Exchange :=
  match packetize command payload packetSize with
  | .error e => ended (.error e)
  | .ok [] => reading (.awaiting false)
  | .ok (frame :: rest) => writing frame rest

/-- Reads an answer without sending anything. -/
def receive (resync : Bool) : Exchange := reading (.awaiting resync)

/-- The state after a frame was sent. -/
def sent : Exchange → Except Link.Error Unit → Exchange
  | writing _ [], .ok () => reading (.awaiting false)
  | writing _ (frame :: rest), .ok () => writing frame rest
  | writing .., .error e => ended (.error e)
  | x, _ => x

/-- The state after a notification came. -/
def received : Exchange → Except Link.Error Bytes → Exchange
  | reading reader, .ok frame =>
    match reader.push frame with
    | .error e => ended (.error e)
    | .ok (next, none) => reading next
    | .ok (_, some payload) => ended (.ok payload)
  | reading _, .error e => ended (.error e)
  | x, _ => x

instance : Conversation Exchange (Except Link.Error Bytes) where
  move
    | writing frame _ => .send frame
    | reading _ => .receive
    | ended result => .stop result
  sent := sent
  received := received

end Exchange

end Ctap.Ble
