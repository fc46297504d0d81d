import Ctap.Crypto.Error
import Ctap.Crypto.P256

/-!
# Public points

A public key is a pair of coordinates of 32 octets each. Reading one checks its form; whether it
lies on the curve is checked when it is used for key agreement.

## Main definitions

* `PublicPoint.ofCoordinates`, `PublicPoint.ofSec1`: reading a point.
* `PublicPoint.toSec1`: the uncompressed form.
-/

namespace Ctap.Crypto

/-- A pair of coordinates of 32 octets each. -/
structure PublicPoint where
  x : Bytes
  y : Bytes
  length_x : x.length = 32
  length_y : y.length = 32
deriving DecidableEq, Repr

namespace PublicPoint

/-- The point with the given coordinates; the first is checked first. -/
def ofCoordinates (x y : Bytes) : Except Error PublicPoint :=
  if hx : x.length = 32 then
    if hy : y.length = 32 then .ok ⟨x, y, hx, hy⟩
    else .error (.invalidKeyLength 32 y.length)
  else .error (.invalidKeyLength 32 x.length)

/-- Reads the uncompressed form: a mark and both coordinates. -/
def ofSec1 (octets : Bytes) : Except Error PublicPoint :=
  if octets.length = 65 ∧ octets.head? = some 0x04 then
    ofCoordinates ((octets.drop 1).take 32) (octets.drop 33)
  else .error .invalidPublicKey

/-- The uncompressed form of a point. -/
def toSec1 (point : PublicPoint) : Bytes := 0x04 :: point.x ++ point.y

/-- The point with numbers as coordinates. -/
def ofNats (coordinates : Nat × Nat) : PublicPoint :=
  { x := Bytes.ofNat 32 coordinates.1
    y := Bytes.ofNat 32 coordinates.2
    length_x := Bytes.length_ofNat ..
    length_y := Bytes.length_ofNat .. }

/-- The coordinates of a point on the curve. -/
def toNats? (point : PublicPoint) : Option (Nat × Nat) :=
  let x := Bytes.toNat point.x
  let y := Bytes.toNat point.y
  if P256.onCurve x y then some (x, y) else none

/-- The list of octets in decimal. -/
def describeOctets (octets : Bytes) : String :=
  "[" ++ String.intercalate ", " (octets.map fun octet => toString octet.toNat) ++ "]"

/-- The text of a point. -/
def describe (point : PublicPoint) : String :=
  "PublicPoint \x7b x: " ++ describeOctets point.x ++ ", y: " ++ describeOctets point.y ++ " \x7d"

end PublicPoint

end Ctap.Crypto
