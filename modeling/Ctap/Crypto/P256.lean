import Ctap.Bytes

/-!
# The elliptic curve P-256

Points `(x, y)` with `y² = x³ - 3x + b` over the field of `p` elements. Multiples are computed in
projective coordinates `(X, Y, Z)` that stand for `(X/Z², Y/Z³)`; `Z = 0` is the point at infinity.

## Main definitions

* `P256.onCurve`: whether a pair of numbers below `p` is a point.
* `P256.multiply`: a multiple of a point.
* `P256.generator`: the point whose multiples are the public keys.
-/

namespace Ctap.Crypto.P256

/-- The order of the field. -/
def p : Nat := 0xffffffff00000001000000000000000000000000ffffffffffffffffffffffff

/-- The constant term of the curve equation. -/
def b : Nat := 0x5ac635d8aa3a93e7b3ebbd55769886bc651d06b0cc53b0f63bce3c3e27d2604b

/-- The number of points. -/
def order : Nat := 0xffffffff00000000ffffffffffffffffbce6faada7179e84f3b9cac2fc632551

/-- Difference in the field. -/
def sub (x y : Nat) : Nat := (x + (p - y % p)) % p

/-- Product in the field. -/
def mul (x y : Nat) : Nat := x * y % p

/-- The lowest `count` binary digits, highest first. -/
def bits : Nat → Nat → List Bool
  | 0, _ => []
  | count + 1, n => n.testBit count :: bits count n

/-- Power in the field. -/
def pow (x exponent : Nat) : Nat :=
  (bits 256 exponent).foldl (fun acc bit => if bit then mul (mul acc acc) x else mul acc acc) 1

/-- Inverse in the field, with 0 for 0. -/
def inv (x : Nat) : Nat := pow x (p - 2)

/-- Whether two numbers are the coordinates of a point. -/
def onCurve (x y : Nat) : Bool :=
  x < p && y < p && mul y y == (mul (mul x x) x + sub b (3 * x % p)) % p

/-- A point in projective coordinates. -/
structure Projective where
  /-- First coordinate, times the square of the third. -/
  x : Nat
  /-- Second coordinate, times the cube of the third. -/
  y : Nat
  z : Nat
deriving DecidableEq, Repr, Inhabited

/-- The point at infinity. -/
def infinity : Projective := ⟨1, 1, 0⟩

/-- Twice a point. -/
def double (a : Projective) : Projective :=
  let delta := mul a.z a.z
  let gamma := mul a.y a.y
  let beta := mul a.x gamma
  let alpha := 3 * mul (sub a.x delta) ((a.x + delta) % p) % p
  let x := sub (mul alpha alpha) (8 * beta)
  let y := sub (mul alpha (sub (4 * beta % p) x)) (8 * mul gamma gamma)
  ⟨x, y, 2 * mul a.y a.z % p⟩

/-- The sum of two points. -/
def add (a c : Projective) : Projective :=
  if a.z = 0 then c
  else if c.z = 0 then a
  else
    let z1z1 := mul a.z a.z
    let z2z2 := mul c.z c.z
    let u1 := mul a.x z2z2
    let u2 := mul c.x z1z1
    let s1 := mul a.y (mul c.z z2z2)
    let s2 := mul c.y (mul a.z z1z1)
    if u1 = u2 then
      if s1 = s2 then double a else infinity
    else
      let h := sub u2 u1
      let r := sub s2 s1
      let hh := mul h h
      let hhh := mul h hh
      let v := mul u1 hh
      let x := sub (sub (mul r r) hhh) (2 * v)
      let y := sub (mul r (sub v x)) (mul s1 hhh)
      ⟨x, y, mul h (mul a.z c.z)⟩

/-- The coordinates of a point; the point at infinity gives zeros. -/
def toAffine (a : Projective) : Nat × Nat :=
  let zi := inv a.z
  let zi2 := mul zi zi
  (mul a.x zi2, mul a.y (mul zi zi2))

/-- The multiple of a point by a scalar of at most 256 binary digits. -/
def multiply (scalar : Nat) (point : Nat × Nat) : Nat × Nat :=
  let base : Projective := ⟨point.1, point.2, 1⟩
  toAffine <| (bits 256 scalar).foldl
    (fun acc bit => if bit then add (double acc) base else double acc) infinity

/-- The point whose multiples are the public keys. -/
def generator : Nat × Nat :=
  (0x6b17d1f2e12c4247f8bce6e563a440f277037d812deb33a0f4a13945d898c296,
   0x4fe342e2fe1a7f9b8ee7eb4a7c0f9e162bce33576b315ececbb6406837bf51f5)

end Ctap.Crypto.P256
