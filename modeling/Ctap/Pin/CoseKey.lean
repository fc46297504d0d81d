import Ctap.Cbor.IntMap
import Ctap.Crypto.PublicPoint

/-!
# COSE keys for key agreement

A public point travels as a map with its key type, algorithm, curve and coordinates. Reading one
requires key type and curve, and does not look at the algorithm.

## Main definitions

* `coseKey`: the map of a point.
* `parseCoseKey`: the point in a map.
-/

namespace Ctap.Pin

open Cbor (IntMap)
open Crypto (PublicPoint)

namespace Cose

/-- Label of the key type. -/
def keyType : Int64 := 1

/-- Label of the algorithm. -/
def algorithm : Int64 := 3

/-- Label of the curve. -/
def curve : Int64 := -1

/-- Label of the first coordinate. -/
def x : Int64 := -2

/-- Label of the second coordinate. -/
def y : Int64 := -3

/-- The key type of elliptic curve keys with both coordinates. -/
def ec2 : Int64 := 2

/-- The algorithm of key agreement with a derived key. -/
def ecdhHkdf256 : Int64 := -25

/-- The curve P-256. -/
def p256 : Int64 := 1

end Cose

/-- The map of a point. -/
def coseKey (point : PublicPoint) : IntMap :=
  IntMap.empty
    |>.insertInt Cose.keyType Cose.ec2
    |>.insertInt Cose.algorithm Cose.ecdhHkdf256
    |>.insertInt Cose.curve Cose.p256
    |>.insertBytes Cose.x point.x
    |>.insertBytes Cose.y point.y

/-- The point in a map. Key type and curve are read before either is judged, and both coordinates
before their lengths are. -/
def parseCoseKey (key : IntMap) : Except Error PublicPoint := do
  let keyType ← key.getInt Cose.keyType
  let curve ← key.getInt Cose.curve
  if keyType = Cose.ec2.toInt ∧ curve = Cose.p256.toInt then
    let x ← key.getBytes Cose.x
    let y ← key.getBytes Cose.y
    liftCrypto (PublicPoint.ofCoordinates x y)
  else .error (.crypto .invalidCoseKey)

end Ctap.Pin
