import Ctap.Cbor.Reader
import Ctap.Error

/-!
# Maps with integer keys

Requests and responses are maps with integer keys. Entries keep their order, and keys may repeat; a
look-up gives the first entry with its key. A required value must be present and of the kind asked
for.

## Main definitions

* `IntMap`: entries in order.
* `IntMap.insert` and its variants, `IntMap.toValue`, `IntMap.encode`: building and writing a map.
* `IntMap.ofValue`, `IntMap.ofBytes`: reading a map.
* `IntMap.get?`, `IntMap.getBytes`, `IntMap.getInt`, `IntMap.getMap`: look-up.
-/

namespace Ctap.Cbor

/-- A map with integer keys, in the order of its entries. -/
structure IntMap where
  entries : List (Int × Value)
deriving Repr, Inhabited

namespace IntMap

/-- The map without entries. -/
def empty : IntMap := ⟨[]⟩

/-- Adds an entry at the end. -/
def insert (m : IntMap) (key : Int64) (value : Value) : IntMap :=
  ⟨m.entries ++ [(key.toInt, value)]⟩

/-- Adds an integer. -/
def insertInt (m : IntMap) (key value : Int64) : IntMap := m.insert key (.ofInt value.toInt)

/-- Adds an octet string. -/
def insertBytes (m : IntMap) (key : Int64) (octets : Bytes) : IntMap := m.insert key (.bytes octets)

/-- Adds a text if there is one. -/
def insertText? (m : IntMap) (key : Int64) (text : Option String) : IntMap :=
  match text with
  | some characters => m.insert key (.text characters)
  | none => m

/-- The map as a value. -/
def toValue (m : IntMap) : Value := .map (m.entries.map fun entry => (.ofInt entry.1, entry.2))

/-- The octets of the map. -/
def encode (m : IntMap) : Bytes := m.toValue.encode

/-- The fault of octets that are no CBOR item. -/
def malformed : Error := .invalidCbor "malformed CBOR"

/-- The fault of a value that should be a map. -/
def expectedMap : Error := .invalidCbor "expected a map"

/-- The fault of a key that is no integer. -/
def expectedIntegerKey : Error := .invalidCbor "map key is not an integer"

/-- The fault of a value that should be an octet string. -/
def expectedBytes : Error := .invalidCbor "expected a byte string"

/-- The fault of a value that should be an integer. -/
def expectedInt : Error := .invalidCbor "expected an integer"

/-- The fault of a missing value. -/
def missing : Error := .invalidCbor "missing parameter"

/-- The entries with integer keys; any other key is refused. -/
def ofEntries : List (Value × Value) → Except Error (List (Int × Value))
  | [] => .ok []
  | (key, value) :: rest =>
    match key.toInt? with
    | none => .error expectedIntegerKey
    | some k =>
      match ofEntries rest with
      | .error e => .error e
      | .ok entries => .ok ((k, value) :: entries)

/-- The map that a value is. -/
def ofValue : Value → Except Error IntMap
  | .map entries =>
    match ofEntries entries with
    | .error e => .error e
    | .ok entries => .ok ⟨entries⟩
  | _ => .error expectedMap

/-- The map at the front of a string of octets. -/
def ofBytes (input : Bytes) : Except Error IntMap :=
  match Value.decode? input with
  | none => .error malformed
  | some value => ofValue value

/-- The value of the first entry with a key. -/
def get? (m : IntMap) (key : Int64) : Option Value :=
  (m.entries.find? (·.1 == key.toInt)).map (·.2)

/-- The octet string with a key. -/
def getBytes (m : IntMap) (key : Int64) : Except Error Bytes :=
  match m.get? key with
  | some (.bytes octets) => .ok octets
  | some _ => .error expectedBytes
  | none => .error missing

/-- The integer with a key. -/
def getInt (m : IntMap) (key : Int64) : Except Error Int :=
  match m.get? key with
  | some value =>
    match value.toInt? with
    | some n => .ok n
    | none => .error expectedInt
  | none => .error missing

/-- The map with a key. -/
def getMap (m : IntMap) (key : Int64) : Except Error IntMap :=
  match m.get? key with
  | some (.map entries) => ofValue (.map entries)
  | some _ => .error expectedMap
  | none => .error missing

end IntMap

end Ctap.Cbor
