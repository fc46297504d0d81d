/-!
# Binary floating point formats

Numbers of 16 and 32 bits have a value in the format of 64 bits. A number of 64 bits is written in a
shorter format if one of that format has exactly its bits as value.

## Main definitions

* `ofHalf`, `ofSingle`: the bits of 64 of a shorter number.
* `toHalf?`, `toSingle?`: the shorter number with the given bits of 64, if there is one.
-/

namespace Ctap.Cbor.Binary

/-- A binary format: the number of bits of the exponent and of the fraction. -/
structure Format where
  exponentBits : Nat
  fractionBits : Nat

namespace Format

/-- The format of 16 bits. -/
def half : Format := ⟨5, 10⟩

/-- The format of 32 bits. -/
def single : Format := ⟨8, 23⟩

/-- The exponent of infinities and of values that are no number. -/
def topExponent (f : Format) : Nat := 1 <<< f.exponentBits - 1

/-- What is subtracted from a stored exponent. -/
def bias (f : Format) : Nat := 1 <<< (f.exponentBits - 1) - 1

/-- The bits of 64 with the given sign, stored exponent and fraction. -/
def assemble (sign exponent fraction : Nat) : Nat :=
  sign <<< 63 + exponent <<< 52 + fraction

/-- The bits of 64 of a number of the format. A value that is no number becomes a quiet one and
keeps its payload. -/
def widen (f : Format) (bits : Nat) : Nat :=
  let fraction := bits % 1 <<< f.fractionBits
  let exponent := bits >>> f.fractionBits % 1 <<< f.exponentBits
  let sign := bits >>> (f.fractionBits + f.exponentBits) % 2
  let aligned := fraction <<< (52 - f.fractionBits)
  if exponent = f.topExponent then
    if fraction = 0 then assemble sign 2047 0
    else assemble sign 2047 (aligned ||| 1 <<< 51)
  else if exponent = 0 then
    if fraction = 0 then assemble sign 0 0
    else
      let top := fraction.log2
      assemble sign (1023 + top + 1 - f.bias - f.fractionBits)
        (fraction <<< (52 - top) - 1 <<< 52)
  else assemble sign (1023 + exponent - f.bias) aligned

/-- The only number of the format that can have these bits of 64. -/
def candidate (f : Format) (bits : Nat) : Nat :=
  let fraction := bits % 1 <<< 52
  let exponent := bits >>> 52 % 1 <<< 11
  let sign := bits >>> 63 % 2
  let signBit := sign <<< (f.fractionBits + f.exponentBits)
  let shortened := fraction >>> (52 - f.fractionBits)
  if exponent = 2047 then signBit + f.topExponent <<< f.fractionBits + shortened
  else if 1023 < exponent + f.bias then
    signBit + ((exponent + f.bias - 1023) <<< f.fractionBits + shortened) %
      1 <<< (f.fractionBits + f.exponentBits)
  else
    signBit + (1 <<< 52 + fraction) >>> (52 - f.fractionBits + 1 + (1023 - f.bias - exponent))

/-- The number of the format with these bits of 64, if there is one. -/
def narrow? (f : Format) (bits : Nat) : Option Nat :=
  let c := f.candidate bits
  if f.widen c = bits then some c else none

end Format

/-- The bits of 64 of a number of 16 bits. -/
def ofHalf (w : UInt16) : UInt64 := UInt64.ofNat (Format.half.widen w.toNat)

/-- The bits of 64 of a number of 32 bits. -/
def ofSingle (w : UInt32) : UInt64 := UInt64.ofNat (Format.single.widen w.toNat)

/-- The number of 16 bits with these bits of 64. -/
def toHalf? (bits : UInt64) : Option UInt16 :=
  (Format.half.narrow? bits.toNat).map UInt16.ofNat

/-- The number of 32 bits with these bits of 64. -/
def toSingle? (bits : UInt64) : Option UInt32 :=
  (Format.single.narrow? bits.toNat).map UInt32.ofNat

example : ofHalf 0x0001 = 0x3e70000000000000 := by decide

example : toHalf? 0x40effc0000000000 = some 0x7bff := by decide

example : toHalf? 0x3e60000000000000 = none := by decide

example : toSingle? 0x3e60000000000000 = some 0x33000000 := by decide

end Ctap.Cbor.Binary
