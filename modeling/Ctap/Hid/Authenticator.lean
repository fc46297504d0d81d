import Ctap.Authenticator
import Ctap.Hid.Exchange

/-!
# Authenticators behind a HID link

A channel is allocated on first use and kept. While a request is out the channel counts as busy, and
a call that is dropped then leaves it so: the answer may still come. The next call sends INIT on the
busy channel, which makes the authenticator give the old request up and lets the reader discard what
is left of its answer. Any error on the link closes the channel, so that the next call allocates
one.

## Main definitions

* `Channel`: closed, ready, or busy.
* `Request`, `Call`: what a caller asks for, and where its call stands.
* `HidAuthenticator`: the packet size of the link and the channel.
-/

namespace Ctap.Hid

open Link (Conversation Move)

/-- The state of the channel that an authenticator uses. -/
inductive Channel where
  | closed
  | ready (id : ChannelId)
  /-- A request was begun on the channel and its answer has not been read. -/
  | busy (id : ChannelId)
deriving DecidableEq, Repr, Inhabited

/-- What a caller asks for. -/
structure Request where
  command : Command
  payload : Bytes
  nonce : Bytes
deriving Repr, Inhabited

/-- A call between two link operations. -/
inductive Call where
  | opening (request : Request) (handshake : Handshake)
  | exchanging (channel : ChannelId) (exchange : Exchange)
  | ended (result : Except Ctap.Error Bytes)

/-- The state that an authenticator keeps between calls. -/
structure HidAuthenticator where
  packetSize : Nat
  channel : Channel
deriving DecidableEq, Repr, Inhabited

namespace HidAuthenticator

/-- An authenticator that was never used. -/
def fresh (packetSize : Nat) : HidAuthenticator := ⟨packetSize, .closed⟩

/-- Records the end of an exchange: an answer leaves the channel ready, an error closes it. -/
def afterExchange (a : HidAuthenticator) (channel : ChannelId) :
    Exchange → HidAuthenticator × Call
  | .ended (.ok payload) => ({ a with channel := .ready channel }, .ended (.ok payload))
  | .ended (.error e) => ({ a with channel := .closed }, .ended (.error (.link e)))
  | exchange => (a, .exchanging channel exchange)

/-- Sends a request on a channel, which is busy from then on. -/
def dispatch (a : HidAuthenticator) (channel : ChannelId) (request : Request) :
    HidAuthenticator × Call :=
  { a with channel := .busy channel }.afterExchange channel
    (.transact channel request.command request.payload a.packetSize)

/-- Records the end of a handshake: the request goes out on the channel that was granted, and an
error leaves no channel. -/
def afterHandshake (a : HidAuthenticator) (request : Request) (h : Handshake) :
    HidAuthenticator × Call :=
  match Conversation.move h with
  | .stop (.ok welcome) => a.dispatch welcome.channel request
  | .stop (.error e) => ({ a with channel := .closed }, .ended (.error (.link e)))
  | _ => (a, .opening request h)

/-- Begins a call: at once on a ready channel, after INIT on the broadcast channel if there is none,
and after INIT on the channel itself if it is busy. -/
def engage (a : HidAuthenticator) (request : Request) : HidAuthenticator × Call :=
  match a.channel with
  | .ready id => a.dispatch id request
  | .busy stale => a.afterHandshake request (.start stale request.nonce a.packetSize)
  | .closed => a.afterHandshake request (.start broadcast request.nonce a.packetSize)

/-- What a call does next. -/
def move : Call → Move (Except Ctap.Error Bytes)
  | .opening _ h => (Conversation.move h).map fun _ => .error .cancelled
  | .exchanging _ x => (Conversation.move x).map liftLink
  | .ended result => .stop result

/-- Goes on after a packet was sent. -/
def sent (a : HidAuthenticator) (call : Call) (r : Except Link.Error Unit) :
    HidAuthenticator × Call :=
  match call with
  | .opening request h => a.afterHandshake request (Conversation.sent h r)
  | .exchanging channel x => a.afterExchange channel (x.sent r)
  | .ended result => (a, .ended result)

/-- Goes on after a packet was received. -/
def received (a : HidAuthenticator) (call : Call) (r : Except Link.Error Bytes) :
    HidAuthenticator × Call :=
  match call with
  | .opening request h => a.afterHandshake request (Conversation.received h r)
  | .exchanging channel x => a.afterExchange channel (x.received r)
  | .ended result => (a, .ended result)

/-- A CANCEL message while a request is out, and nothing otherwise. -/
def cancellation (a : HidAuthenticator) : Except Link.Error (List Bytes) :=
  match a.channel with
  | .busy id => packetize .cancel id [] a.packetSize
  | _ => .ok []

instance : Authenticator HidAuthenticator Request Call where
  engage := engage
  move _ := move
  sent := sent
  received := received
  patience _ := none
  cancellation := cancellation

end HidAuthenticator

end Ctap.Hid
