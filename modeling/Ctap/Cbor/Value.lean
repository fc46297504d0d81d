import Ctap.Bytes

/-!
# CBOR values

Integers have 64 bits and a sign of their own, so that they reach from `-2^64` to `2^64 - 1`. Maps
are lists of pairs in the order in which they are written, with no condition on keys.

## Main definitions

* `Value`: the values.
* `Value.ofInt`, `Value.toInt?`: integers.
-/

namespace Ctap.Cbor

/-- CBOR values. -/
inductive Value where
  | unsigned (n : UInt64)
  /-- The negative integer `-1 - n`. -/
  | negative (n : UInt64)
  | bytes (octets : Bytes)
  | text (characters : String)
  | float (bits : UInt64)
  | bool (b : Bool)
  | null
  | tag (number : UInt64) (content : Value)
  | array (items : List Value)
  | map (entries : List (Value × Value))
deriving Repr, Inhabited

namespace Value

/-- The integer value `n`, which must have at most 64 bits besides its sign. -/
def ofInt (n : Int) : Value :=
  if 0 ≤ n then unsigned (UInt64.ofNat n.toNat) else negative (UInt64.ofNat (-1 - n).toNat)

/-- The number of an integer value. -/
def toInt? : Value → Option Int
  | unsigned n => some n.toNat
  | negative n => some (-1 - (n.toNat : Int))
  | _ => none

end Value

end Ctap.Cbor
