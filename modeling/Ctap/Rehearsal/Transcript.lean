import Ctap.Hex
import Ctap.Rehearsal.Link

/-!
# Lines of a transcript

A rehearsal is written down line by line. A packet is shown by its length and its octets without the
zeros at its end; of one that is too long, only the beginning is shown, with a digest that tells it
apart from others.

## Main definitions

* `digest`: the digest of octets.
* `packetText`: a packet.
* `Entry`: what a device did, or was asked to do, at an instant.
-/

namespace Ctap.Rehearsal

/-- The digest of no octets. -/
def digestStart : UInt64 := 0xcbf29ce484222325

/-- Goes on with a digest. -/
def digestStep (h : UInt64) (octet : UInt8) : UInt64 := (h ^^^ octet.toUInt64) * 0x100000001b3

/-- The digest of octets, in the manner of FNV-1a. -/
def digest (octets : Bytes) : UInt64 := octets.foldl digestStep digestStart

/-- The digest of lines, each with a line feed at its end. -/
def digestLines (lines : List String) : UInt64 :=
  lines.foldl (fun h line => digestStep (line.toUTF8.data.foldl digestStep h) 10) digestStart

/-- A word of 64 bits as digits. -/
def wordText (w : UInt64) : String := String.ofList (Hex.digits 16 w.toNat [])

/-- How many octets are shown in full. -/
def shownInFull : Nat := 600

/-- How many octets are shown of a longer string. -/
def shownInPart : Nat := 32

/-- A packet: its length and its octets without the zeros at its end. -/
def packetText (octets : Bytes) : String :=
  let kept := (octets.reverse.dropWhile (· == 0)).reverse
  let shown :=
    if kept.length ≤ shownInFull then Hex.encode kept
    else Hex.encode (octets.take shownInPart) ++ "#" ++ wordText (digest octets)
  toString octets.length ++ ":" ++ shown

/-- What happens on the side of a device. -/
inductive Happening where
  | sent (shown : Bytes)
  | asked (request : Bytes)
  | cancelled
deriving DecidableEq, Repr

/-- A happening with its instant and its device. -/
structure Entry where
  time : Time
  device : String
  happening : Happening
deriving DecidableEq, Repr

/-- The line for an entry. -/
def Entry.line (e : Entry) : String :=
  let what :=
    match e.happening with
    | .sent shown => "tx " ++ packetText shown
    | .asked request => "cbor " ++ packetText request
    | .cancelled => "cancel"
  toString e.time ++ " " ++ e.device ++ " " ++ what

/-- What a link recorded since an earlier time, in order. -/
def newEntries (device : String) (before after : ScriptedLink) : List Entry :=
  (after.record.take (after.record.length - before.record.length)).reverse.map fun s =>
    ⟨s.time, device, .sent s.shown⟩

end Ctap.Rehearsal
