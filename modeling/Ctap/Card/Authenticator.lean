import Ctap.Authenticator
import Ctap.Card.Exchange

/-!
# Authenticators behind a card reader

The applet is selected before the first request and again after one that failed. A call that is
dropped leaves the record of the last finished call.

## Main definitions

* `CardAuthenticator`: how requests are sent, and whether the applet is selected.
-/

namespace Ctap.Card

open Link (Conversation Move)

/-- The state that an authenticator keeps between calls. -/
structure CardAuthenticator where
  /-- Whether a request is sent in one extended command. -/
  extended : Bool
  selected : Bool
deriving DecidableEq, Repr, Inhabited

/-- What a caller asks for. -/
structure Request where
  payload : Bytes
deriving Repr, Inhabited

namespace CardAuthenticator

/-- An authenticator that was never used. -/
def fresh (extended : Bool) : CardAuthenticator := ⟨extended, false⟩

/-- Records the end of a call: after a success the applet is selected, after a failure it counts as
not selected. -/
def record (a : CardAuthenticator) : Exchange → CardAuthenticator × Exchange
  | .ended (.ok body) => ({ a with selected := true }, .ended (.ok body))
  | .ended (.error e) => ({ a with selected := false }, .ended (.error e))
  | x => (a, x)

/-- Begins a call. -/
def engage (a : CardAuthenticator) (request : Request) : CardAuthenticator × Exchange :=
  a.record (.start request.payload (!a.selected) a.extended)

instance : Authenticator CardAuthenticator Request Exchange where
  engage := engage
  move _ x := (Conversation.move x).map liftLink
  sent a x r := a.record (x.sent r)
  received a x r := a.record (x.received r)
  patience _ := none
  cancellation _ := .ok []

end CardAuthenticator

end Ctap.Card
