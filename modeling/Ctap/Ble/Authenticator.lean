import Ctap.Authenticator
import Ctap.Ble.Reader

/-!
# Authenticators behind a BLE connection

The authenticator answers requests in order. When a call is dropped after its request went out, the
answer still comes; it counts as owed, and the next call discards owed answers before it reads its
own. While answers are owed a reader also drops continuations ahead of a header. A call that takes
longer than the answer timeout is dropped in the same way.

## Main definitions

* `BleAuthenticator`: packet size, answer timeout, and the number of requests without an answer.
* `Call`: frames to send, then answers to read.
-/

namespace Ctap.Ble

open Link (Conversation Move)

/-- How long an authenticator may take for an answer unless told otherwise. -/
def defaultAnswerTimeout : Time := 30000

/-- What a caller asks for. -/
structure Request where
  command : Command
  payload : Bytes
deriving Repr, Inhabited

/-- A call between two link operations. -/
inductive Call where
  | writing (frame : Bytes) (rest : List Bytes)
  /-- An answer is being read; `stale` says whether it is owed to an earlier call. -/
  | reading (stale : Bool) (reader : Reader)
  | ended (result : Except Ctap.Error Bytes)

/-- The state that an authenticator keeps between calls. -/
structure BleAuthenticator where
  packetSize : Nat
  /-- How long a call may take. -/
  answerTimeout : Time
  /-- Requests that were written and whose answer has not been read. They are counted in a machine
  word, which only as many requests without an answer would fill; here the count has no bound. It is
  positive whenever an answer is being read, so taking off one never goes below zero. -/
  outstanding : Nat
deriving DecidableEq, Repr, Inhabited

namespace BleAuthenticator

/-- A connection whose control point length was read; a length out of range is refused. -/
def connect (controlPointLength : Except Link.Error Nat) (answerTimeout : Time) :
    Except Ctap.Error BleAuthenticator :=
  match controlPointLength with
  | .error e => .error (.link e)
  | .ok reported =>
    match validatePacketSize reported with
    | .error e => .error (.link e)
    | .ok packetSize => .ok ⟨packetSize, answerTimeout, 0⟩

/-- Reads the next answer, which is owed to an earlier call if more than one is outstanding. -/
def readNext (a : BleAuthenticator) : BleAuthenticator × Call :=
  let stale := decide (1 < a.outstanding)
  (a, .reading stale (.awaiting stale))

/-- Counts the request just written and reads the next answer. -/
def written (a : BleAuthenticator) : BleAuthenticator × Call :=
  { a with outstanding := a.outstanding + 1 }.readNext

/-- Takes an answer, or the error that came in its place, off the count. One that was owed is
discarded and the next answer is read. -/
def answered (a : BleAuthenticator) (stale : Bool) (result : Except Link.Error Bytes) :
    BleAuthenticator × Call :=
  let a := { a with outstanding := a.outstanding - 1 }
  if stale then a.readNext else (a, .ended (liftLink result))

/-- Begins a call. -/
def engage (a : BleAuthenticator) (request : Request) : BleAuthenticator × Call :=
  match packetize request.command request.payload a.packetSize with
  | .error e => (a, .ended (.error (.link e)))
  | .ok [] => a.written
  | .ok (frame :: rest) => (a, .writing frame rest)

/-- What a call does next. -/
def move : Call → Move (Except Ctap.Error Bytes)
  | .writing frame _ => .send frame
  | .reading .. => .receive
  | .ended result => .stop result

/-- Goes on after a frame was sent. -/
def sent (a : BleAuthenticator) : Call → Except Link.Error Unit → BleAuthenticator × Call
  | .writing _ [], .ok () => a.written
  | .writing _ (frame :: rest), .ok () => (a, .writing frame rest)
  | .writing .., .error e => (a, .ended (.error (.link e)))
  | call, _ => (a, call)

/-- Goes on after a notification came. -/
def received (a : BleAuthenticator) : Call → Except Link.Error Bytes → BleAuthenticator × Call
  | .reading stale reader, .ok frame =>
    match reader.push frame with
    | .error e => a.answered stale (.error e)
    | .ok (next, none) => (a, .reading stale next)
    | .ok (_, some payload) => a.answered stale (.ok payload)
  | .reading stale _, .error e => a.answered stale (.error e)
  | call, _ => (a, call)

/-- A CANCEL message while an answer is outstanding, and nothing otherwise. -/
def cancellation (a : BleAuthenticator) : Except Link.Error (List Bytes) :=
  if a.outstanding = 0 then .ok [] else packetize .cancel [] a.packetSize

instance : Authenticator BleAuthenticator Request Call where
  engage := engage
  move _ := move
  sent := sent
  received := received
  patience a := some a.answerTimeout
  cancellation := cancellation

end BleAuthenticator

end Ctap.Ble
