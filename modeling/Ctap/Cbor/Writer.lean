import Ctap.Cbor.Binary
import Ctap.Cbor.Value

/-!
# Writing CBOR

Every item begins with a head: a major type and an argument in the fewest octets that hold it.
Lengths are always definite. Floating point numbers take the shortest format that keeps their bits.

## Main definitions

* `head`: the octets of a head.
* `Value.encode`: the octets of a value.
-/

namespace Ctap.Cbor

/-- The major types of items. -/
inductive Major where
  | unsigned
  | negative
  | bytes
  | text
  | array
  | map
  | tag
  /-- Simple values, floating point numbers and the break mark. -/
  | simple
deriving DecidableEq, Repr, Inhabited

/-- The number of a major type. -/
def Major.toNat : Major → Nat
  | unsigned => 0
  | negative => 1
  | bytes => 2
  | text => 3
  | array => 4
  | map => 5
  | tag => 6
  | simple => 7

/-- The octet that begins an item: the major type and five further bits. -/
def initialOctet (major : Major) (low : Nat) : UInt8 := UInt8.ofNat (32 * major.toNat + low)

/-- The head with an argument below `2^64`, in the fewest octets. -/
def head (major : Major) (argument : Nat) : Bytes :=
  if argument < 24 then [initialOctet major argument]
  else if argument < UInt8.size then initialOctet major 24 :: Bytes.ofNat 1 argument
  else if argument < UInt16.size then initialOctet major 25 :: Bytes.ofNat 2 argument
  else if argument < UInt32.size then initialOctet major 26 :: Bytes.ofNat 4 argument
  else initialOctet major 27 :: Bytes.ofNat 8 argument

/-- A floating point number in the shortest format that keeps its bits. -/
def encodeFloat (bits : UInt64) : Bytes :=
  match Binary.toHalf? bits with
  | some w => initialOctet .simple 25 :: Bytes.ofNat 2 w.toNat
  | none =>
    match Binary.toSingle? bits with
    | some w => initialOctet .simple 26 :: Bytes.ofNat 4 w.toNat
    | none => initialOctet .simple 27 :: Bytes.ofNat 8 bits.toNat

/-- The octets of a text in UTF-8. -/
def textOctets (characters : String) : Bytes := characters.toUTF8.data.toList

namespace Value

mutual

/-- The octets of a value. -/
def encode : Value → Bytes
  | unsigned n => head .unsigned n.toNat
  | negative n => head .negative n.toNat
  | bytes octets => head .bytes octets.length ++ octets
  | text characters =>
    head .text (textOctets characters).length ++ textOctets characters
  | float bits => encodeFloat bits
  | bool b => head .simple (if b then 21 else 20)
  | null => head .simple 22
  | tag number content => head .tag number.toNat ++ content.encode
  | array items => head .array items.length ++ encodeItems items
  | map entries => head .map entries.length ++ encodeEntries entries

/-- The octets of the items of an array. -/
def encodeItems : List Value → Bytes
  | [] => []
  | item :: rest => item.encode ++ encodeItems rest

/-- The octets of the entries of a map. -/
def encodeEntries : List (Value × Value) → Bytes
  | [] => []
  | entry :: rest => entry.1.encode ++ (entry.2.encode ++ encodeEntries rest)

end

end Value

end Ctap.Cbor
