import Ctap.Card.Apdu
import Ctap.Link.Conversation

/-!
# Exchanges with a card

Every command is answered by a response with a status word. A request selects the applet if asked
to, then sends its commands, and then collects the response, which a card may deliver in parts. The
first response that is not a success ends the exchange; a card that keeps announcing more data is
given up after a fixed number of parts.

## Main definitions

* `Phase`: which response is awaited.
* `Exchange`: a command that is being sent, or one whose response is awaited.
-/

namespace Ctap.Card

open Link (Conversation Move)

/-- The part of an exchange to which a command belongs. -/
inductive Phase where
  | selecting
  | preparing (payload : Bytes) (extended : Bool)
  | chaining (rest : List Bytes)
  /-- The response is being collected; `rounds` parts were asked for so far. -/
  | collecting (body : Bytes) (rounds : Nat)
deriving DecidableEq, Repr, Inhabited

/-- An exchange between two link operations. -/
inductive Exchange where
  | command (apdu : Bytes) (phase : Phase)
  | response (phase : Phase)
  | ended (result : Except Link.Error Bytes)

namespace Exchange

/-- Sends the commands of a request, of which there is at least one. -/
def sendAll : Except Link.Error (List Bytes) → Exchange
  | .error e => ended (.error e)
  | .ok [] => ended (.error (.invalidArgument "no APDU to send"))
  | .ok [last] => command last (.collecting [] 0)
  | .ok (apdu :: rest) => command apdu (.chaining rest)

/-- Sends a request, whole or in a chain. -/
def request (payload : Bytes) (extended : Bool) : Exchange :=
  sendAll (if extended then extendedCommand payload else .ok (chainedCommands payload))

/-- Selects the applet and gives its version. -/
def select : Exchange := command selectApplet .selecting

/-- Sends a request, after selecting the applet if asked to. -/
def start (payload : Bytes) (selectFirst extended : Bool) : Exchange :=
  if selectFirst then command selectApplet (.preparing payload extended)
  else request payload extended

/-- Goes on with the data and status word of a response. -/
def answered (data : Bytes) (status : StatusWord) : Phase → Exchange
  | .selecting =>
    if status.isSuccess then ended (.ok data) else ended (.error (.apduStatus status.value))
  | .preparing payload extended =>
    if status.isSuccess then request payload extended
    else ended (.error (.apduStatus status.value))
  | .chaining rest =>
    if status.isSuccess then sendAll (.ok rest) else ended (.error (.apduStatus status.value))
  | .collecting body rounds =>
    if status.isSuccess then ended (.ok (body ++ data))
    else
      match status.moreData? with
      | none => ended (.error (.apduStatus status.value))
      | some _ =>
        if rounds = maxContinuations then ended (.error .timeout)
        else command getResponse (.collecting (body ++ data) (rounds + 1))

/-- The state after a command was sent. -/
def sent : Exchange → Except Link.Error Unit → Exchange
  | command _ phase, .ok () => response phase
  | command .., .error e => ended (.error e)
  | x, _ => x

/-- The state after a response came. -/
def received : Exchange → Except Link.Error Bytes → Exchange
  | response phase, .ok raw =>
    match StatusWord.split raw with
    | .error e => ended (.error e)
    | .ok (data, status) => answered data status phase
  | response _, .error e => ended (.error e)
  | x, _ => x

instance : Conversation Exchange (Except Link.Error Bytes) where
  move
    | command apdu _ => .send apdu
    | response _ => .receive
    | ended result => .stop result
  sent := sent
  received := received

end Exchange

end Ctap.Card
