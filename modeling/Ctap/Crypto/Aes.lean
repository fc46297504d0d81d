import Ctap.Bytes

/-!
# AES on single blocks

The state is a block of 16 octets, column after column. Octets are elements of the field of 256
elements; the substitution is inversion in the field followed by an affine map.

## Main definitions

* `Aes.KeySchedule`: the round keys expanded from a key of 16 or 32 octets.
* `Aes.encryptBlock`, `Aes.decryptBlock`: the cipher on one block and its inverse.
-/

namespace Ctap.Crypto.Aes

/-- The length of a block. -/
def blockSize : Nat := 16

/-- Multiplication by the generator `x` of the field. -/
def double (b : UInt8) : UInt8 := if b &&& 0x80 = 0 then b <<< 1 else (b <<< 1) ^^^ 0x1B

/-- Multiplication in the field, by the binary digits of the second factor from the lowest one on.
-/
def mul (a b : UInt8) : UInt8 :=
  go 8 a b 0
where
  /-- Adds multiples of `a` for the remaining digits of `b`. -/
  go : Nat → UInt8 → UInt8 → UInt8 → UInt8
  | 0, _, _, acc => acc
  | n + 1, a, b, acc => go n (double a) (b >>> 1) (if b &&& 1 = 0 then acc else acc ^^^ a)

/-- The inverse in the field, with 0 for 0: the power with exponent 254. -/
def inv (a : UInt8) : UInt8 :=
  let a2 := mul a a
  let a3 := mul a2 a
  let a6 := mul a3 a3
  let a12 := mul a6 a6
  let a15 := mul a12 a3
  let a30 := mul a15 a15
  let a60 := mul a30 a30
  let a120 := mul a60 a60
  let a126 := mul a120 a6
  let a127 := mul a126 a
  mul a127 a127

/-- Rotation to the left. -/
def rotl (b n : UInt8) : UInt8 := b <<< n ||| b >>> (8 - n)

/-- The substituted octet. -/
def substitute (a : UInt8) : UInt8 :=
  let b := inv a
  b ^^^ rotl b 1 ^^^ rotl b 2 ^^^ rotl b 3 ^^^ rotl b 4 ^^^ 0x63

/-- All substituted octets in order. -/
def substitutionTable : Array UInt8 := Array.ofFn fun i : Fin 256 => substitute (UInt8.ofNat i)

/-- The octet that a substituted octet comes from, for all octets in order. -/
def inverseTable : Array UInt8 :=
  (Array.range 256).foldl
    (fun table i => table.setIfInBounds (substitutionTable.getD i 0).toNat (UInt8.ofNat i))
    (Array.replicate 256 0)

/-- Substitution by the table. -/
def sub (b : UInt8) : UInt8 := substitutionTable.getD b.toNat 0

/-- Inverse substitution by the table. -/
def subInv (b : UInt8) : UInt8 := inverseTable.getD b.toNat 0

/-- The position in a block from which row shifting takes each octet. -/
def shiftSource : List Nat := [0, 5, 10, 15, 4, 9, 14, 3, 8, 13, 2, 7, 12, 1, 6, 11]

/-- The position in a block from which inverse row shifting takes each octet. -/
def unshiftSource : List Nat := [0, 13, 10, 7, 4, 1, 14, 11, 8, 5, 2, 15, 12, 9, 6, 3]

/-- The octets of a block at the given positions. -/
def rearrange (positions : List Nat) (block : Bytes) : Bytes :=
  let a := block.toArray
  positions.map (a.getD · 0)

/-- Applies a map to every column. -/
def mapColumns (f : UInt8 → UInt8 → UInt8 → UInt8 → Bytes) : Bytes → Bytes
  | a :: b :: c :: d :: rest => f a b c d ++ mapColumns f rest
  | _ => []

/-- Mixes a column. -/
def mixColumn (a b c d : UInt8) : Bytes :=
  let t := a ^^^ b ^^^ c ^^^ d
  [a ^^^ t ^^^ double (a ^^^ b), b ^^^ t ^^^ double (b ^^^ c),
    c ^^^ t ^^^ double (c ^^^ d), d ^^^ t ^^^ double (d ^^^ a)]

/-- Undoes the mixing of a column. -/
def unmixColumn (a b c d : UInt8) : Bytes :=
  let u := double (double (a ^^^ c))
  let v := double (double (b ^^^ d))
  mixColumn (a ^^^ u) (b ^^^ v) (c ^^^ u) (d ^^^ v)

/-- The round keys, one block each. -/
structure KeySchedule where
  first : Bytes
  middle : List Bytes
  last : Bytes
deriving Repr

/-- Extends the words of a key, the latest in front, by `count` more; `size` is the number of words
of the key and `index` that of the next word. -/
def expandWords (size : Nat) : Nat → Nat → UInt8 → List Bytes → List Bytes
  | 0, _, _, ws => ws
  | count + 1, index, constant, ws =>
    let previous := ws.headD []
    let base := ws.getD (size - 1) []
    if index % size = 0 then
      let turned := (previous.drop 1 ++ previous.take 1).map sub
      let mixed := Bytes.xor turned [constant, 0, 0, 0]
      expandWords size count (index + 1) (double constant) (Bytes.xor base mixed :: ws)
    else if 6 < size ∧ index % size = 4 then
      expandWords size count (index + 1) constant (Bytes.xor base (previous.map sub) :: ws)
    else expandWords size count (index + 1) constant (Bytes.xor base previous :: ws)

/-- The key schedule of a key of 16 or 32 octets, with 10 or 14 rounds. -/
def KeySchedule.ofKey (key : Bytes) : KeySchedule :=
  let size := key.length / 4
  let total := 4 * (size + 7)
  let words := (expandWords size (total - size) size 1 (Bytes.chunks 4 key).reverse).reverse
  let keys := Bytes.chunks blockSize words.flatten
  { first := keys.headD [], middle := keys.tail.dropLast, last := keys.getLastD [] }

/-- The cipher on one block. -/
def encryptBlock (k : KeySchedule) (block : Bytes) : Bytes :=
  let started := Bytes.xor block k.first
  let mixed := k.middle.foldl
    (fun s key => Bytes.xor (mapColumns mixColumn (rearrange shiftSource (s.map sub))) key) started
  Bytes.xor (rearrange shiftSource (mixed.map sub)) k.last

/-- The inverse of the cipher on one block. -/
def decryptBlock (k : KeySchedule) (block : Bytes) : Bytes :=
  let started := (rearrange unshiftSource (Bytes.xor block k.last)).map subInv
  let unmixed := k.middle.foldr
    (fun key s => (rearrange unshiftSource (mapColumns unmixColumn (Bytes.xor s key))).map subInv)
    started
  Bytes.xor unmixed k.first

end Ctap.Crypto.Aes
