import Ctap.Authenticator
import Ctap.Ble.Authenticator
import Ctap.Ble.Frame
import Ctap.Ble.Reader
import Ctap.Bytes
import Ctap.Card.Apdu
import Ctap.Card.Authenticator
import Ctap.Card.Exchange
import Ctap.Cbor.Binary
import Ctap.Cbor.IntMap
import Ctap.Cbor.Reader
import Ctap.Cbor.Value
import Ctap.Cbor.Writer
import Ctap.Crypto.Aes
import Ctap.Crypto.Cbc
import Ctap.Crypto.Error
import Ctap.Crypto.Hmac
import Ctap.Crypto.P256
import Ctap.Crypto.PublicPoint
import Ctap.Crypto.Sha256
import Ctap.Crypto.Stealing
import Ctap.Crypto.Suite
import Ctap.DeviceList
import Ctap.Error
import Ctap.Gateway.ChannelTable
import Ctap.Gateway.Config
import Ctap.Gateway.Dispatch
import Ctap.Gateway.Listener
import Ctap.Gateway.Pipe
import Ctap.Gateway.Reply
import Ctap.Gateway.System
import Ctap.Hex
import Ctap.Hid.Authenticator
import Ctap.Hid.Command
import Ctap.Hid.Exchange
import Ctap.Hid.Message
import Ctap.Hid.Packet
import Ctap.Hid.Reassembler
import Ctap.Hid.Welcome
import Ctap.Link.Conversation
import Ctap.Link.Error
import Ctap.Pin.Ceremony
import Ctap.Pin.CoseKey
import Ctap.Pin.PlatformKey
import Ctap.Pin.Protocol
import Ctap.Proofs.Ble.Framing
import Ctap.Proofs.Ble.Gaps
import Ctap.Proofs.Ble.Grammar
import Ctap.Proofs.Ble.Ownership
import Ctap.Proofs.Ble.Peripheral
import Ctap.Proofs.Ble.Recovery
import Ctap.Proofs.Ble.Stream
import Ctap.Proofs.Card.Applet
import Ctap.Proofs.Card.Chains
import Ctap.Proofs.Card.Encoding
import Ctap.Proofs.Card.Transcript
import Ctap.Proofs.Cbor.Canonical
import Ctap.Proofs.Cbor.Maps
import Ctap.Proofs.Cbor.RoundTrip
import Ctap.Proofs.Conversation
import Ctap.Proofs.Crypto.Aes
import Ctap.Proofs.Crypto.Chaining
import Ctap.Proofs.Gateway.Answering
import Ctap.Proofs.Gateway.Books
import Ctap.Proofs.Gateway.Dialogue
import Ctap.Proofs.Gateway.Entries
import Ctap.Proofs.Gateway.Events
import Ctap.Proofs.Gateway.Exchanges
import Ctap.Proofs.Gateway.Failures
import Ctap.Proofs.Gateway.Interleaving
import Ctap.Proofs.Gateway.Issuing
import Ctap.Proofs.Gateway.Journal
import Ctap.Proofs.Gateway.Messages
import Ctap.Proofs.Gateway.Occupation
import Ctap.Proofs.Gateway.Polling
import Ctap.Proofs.Gateway.Register
import Ctap.Proofs.Gateway.Replies
import Ctap.Proofs.Gateway.Resynchronisation
import Ctap.Proofs.Gateway.Retries
import Ctap.Proofs.Gateway.Sharing
import Ctap.Proofs.Gateway.Silence
import Ctap.Proofs.Gateway.Tearing
import Ctap.Proofs.Gateway.Transparency
import Ctap.Proofs.Hid.Acceptance
import Ctap.Proofs.Hid.Bounds
import Ctap.Proofs.Hid.Calls
import Ctap.Proofs.Hid.Framing
import Ctap.Proofs.Hid.Handshakes
import Ctap.Proofs.Hid.Invariant
import Ctap.Proofs.Hid.Ownership
import Ctap.Proofs.Hid.Reading
import Ctap.Proofs.Hid.Recovery
import Ctap.Proofs.Hid.Rejection
import Ctap.Proofs.Hid.Soundness
import Ctap.Proofs.Hid.Stream
import Ctap.Proofs.Hid.Token
import Ctap.Proofs.Machine
import Ctap.Proofs.Pin.Agreement
import Ctap.Proofs.Pin.Encryption
import Ctap.Proofs.Pin.Issuer
import Ctap.Proofs.Pin.Requests
import Ctap.Proofs.Session
import Ctap.Rehearsal.Alias
import Ctap.Rehearsal.Bench
import Ctap.Rehearsal.Draws
import Ctap.Rehearsal.Link
import Ctap.Rehearsal.Partner
import Ctap.Rehearsal.Puppet
import Ctap.Rehearsal.Run
import Ctap.Rehearsal.Station
import Ctap.Rehearsal.Suite
import Ctap.Rehearsal.Transcript
import Ctap.Rehearsal.World
