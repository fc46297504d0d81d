import Ctap.Bytes

/-!
# Hexadecimal text

Words in messages and octet strings on display are written with lowercase digits and a fixed width.
Reading accepts both cases and refuses an odd number of digits.
-/

namespace Ctap.Hex

/-- The lowercase digit for a value below sixteen. -/
def digit (n : Nat) : Char :=
  if n < 10 then Char.ofNat ('0'.toNat + n) else Char.ofNat ('a'.toNat + (n - 10))

/-- The value of a digit of either case. -/
def digitValue? (c : Char) : Option Nat :=
  if '0' ≤ c ∧ c ≤ '9' then some (c.toNat - '0'.toNat)
  else if 'a' ≤ c ∧ c ≤ 'f' then some (c.toNat - 'a'.toNat + 10)
  else if 'A' ≤ c ∧ c ≤ 'F' then some (c.toNat - 'A'.toNat + 10)
  else none

/-- The last `width` hexadecimal digits of a number, in front of the digits already written. -/
def digits : Nat → Nat → List Char → List Char
  | 0, _, acc => acc
  | width + 1, n, acc => digits width (n / 16) (digit (n % 16) :: acc)

/-- A word of `width` digits after the mark `0x`. -/
def word (width n : Nat) : String := "0x" ++ String.ofList (digits width n [])

/-- Two digits for every octet. -/
def encode (b : Bytes) : String :=
  String.ofList (b.flatMap fun octet => digits 2 octet.toNat [])

/-- The octets written by pairs of digits. -/
def decodeDigits? : List Char → Option Bytes
  | [] => some []
  | [_] => none
  | hi :: lo :: rest => do
    let h ← digitValue? hi
    let l ← digitValue? lo
    let tail ← decodeDigits? rest
    return UInt8.ofNat (16 * h + l) :: tail

/-- Reads a string of hexadecimal digits. -/
def decode? (text : String) : Option Bytes := decodeDigits? text.toList

example : word 4 0x6a82 = "0x6a82" := by decide +kernel

example : decodeDigits? ['0', '0', 'F', 'f'] = some [0, 255] := by decide

end Ctap.Hex
