import Ctap.Bytes

/-!
# SHA-256

A message is padded to whole blocks of 64 octets: one bit, zeros, and the length in bits. Each block
is expanded to 64 words and folded into a state of eight words, round by round.

## Main definitions

* `Sha256.pad`, `Sha256.schedule`, `Sha256.compress`: the three stages.
* `sha256`: the digest of a message.
-/

namespace Ctap.Crypto

namespace Sha256

/-- The eight words that are carried from block to block. -/
structure State where
  a : UInt32
  b : UInt32
  c : UInt32
  d : UInt32
  e : UInt32
  f : UInt32
  g : UInt32
  h : UInt32
deriving DecidableEq, Repr, Inhabited

/-- The state before the first block. -/
def initial : State :=
  ⟨0x6a09e667, 0xbb67ae85, 0x3c6ef372, 0xa54ff53a, 0x510e527f, 0x9b05688c, 0x1f83d9ab, 0x5be0cd19⟩

/-- The constants of the 64 rounds. -/
def roundConstants : List UInt32 :=
  [0x428a2f98, 0x71374491, 0xb5c0fbcf, 0xe9b5dba5, 0x3956c25b, 0x59f111f1, 0x923f82a4, 0xab1c5ed5,
   0xd807aa98, 0x12835b01, 0x243185be, 0x550c7dc3, 0x72be5d74, 0x80deb1fe, 0x9bdc06a7, 0xc19bf174,
   0xe49b69c1, 0xefbe4786, 0x0fc19dc6, 0x240ca1cc, 0x2de92c6f, 0x4a7484aa, 0x5cb0a9dc, 0x76f988da,
   0x983e5152, 0xa831c66d, 0xb00327c8, 0xbf597fc7, 0xc6e00bf3, 0xd5a79147, 0x06ca6351, 0x14292967,
   0x27b70a85, 0x2e1b2138, 0x4d2c6dfc, 0x53380d13, 0x650a7354, 0x766a0abb, 0x81c2c92e, 0x92722c85,
   0xa2bfe8a1, 0xa81a664b, 0xc24b8b70, 0xc76c51a3, 0xd192e819, 0xd6990624, 0xf40e3585, 0x106aa070,
   0x19a4c116, 0x1e376c08, 0x2748774c, 0x34b0bcb5, 0x391c0cb3, 0x4ed8aa4a, 0x5b9cca4f, 0x682e6ff3,
   0x748f82ee, 0x78a5636f, 0x84c87814, 0x8cc70208, 0x90befffa, 0xa4506ceb, 0xbef9a3f7, 0xc67178f2]

/-- The message followed by one bit, zeros and its length, a whole number of blocks. -/
def pad (message : Bytes) : Bytes :=
  message ++ 0x80 :: Bytes.zeros ((119 - message.length % 64) % 64) ++
    Bytes.ofNat 8 (8 * message.length)

/-- Rotation to the right. -/
@[inline] def rotr (w n : UInt32) : UInt32 := w >>> n ||| w <<< (32 - n)

/-- The words of a block. -/
def words : Bytes → List UInt32
  | a :: b :: c :: d :: rest => Bytes.toUInt32 a b c d :: words rest
  | _ => []

/-- Extends the words of a block by `count` more. Each depends on the 2nd, 7th, 15th and 16th before
it. -/
def extend : Nat → Array UInt32 → Array UInt32
  | 0, w => w
  | count + 1, w =>
    let back (k : Nat) := w.getD (w.size - k) 0
    let s₀ := rotr (back 15) 7 ^^^ rotr (back 15) 18 ^^^ back 15 >>> 3
    let s₁ := rotr (back 2) 17 ^^^ rotr (back 2) 19 ^^^ back 2 >>> 10
    extend count (w.push (back 16 + s₀ + back 7 + s₁))

/-- The 64 words of a block. -/
def schedule (block : Bytes) : List UInt32 := (extend 48 (words block).toArray).toList

/-- One round with a constant and a word of the schedule. -/
def round (s : State) (constantAndWord : UInt32 × UInt32) : State :=
  let choice := (s.e &&& s.f) ^^^ (~~~s.e &&& s.g)
  let majority := (s.a &&& s.b) ^^^ (s.a &&& s.c) ^^^ (s.b &&& s.c)
  let s₁ := rotr s.e 6 ^^^ rotr s.e 11 ^^^ rotr s.e 25
  let s₀ := rotr s.a 2 ^^^ rotr s.a 13 ^^^ rotr s.a 22
  let t₁ := s.h + s₁ + choice + constantAndWord.1 + constantAndWord.2
  { a := t₁ + s₀ + majority, b := s.a, c := s.b, d := s.c
    e := s.d + t₁, f := s.e, g := s.f, h := s.g }

/-- Folds a block into the state. -/
def compress (s : State) (block : Bytes) : State :=
  let t := (roundConstants.zip (schedule block)).foldl round s
  ⟨s.a + t.a, s.b + t.b, s.c + t.c, s.d + t.d, s.e + t.e, s.f + t.f, s.g + t.g, s.h + t.h⟩

/-- The octets of a state. -/
def State.toBytes (s : State) : Bytes :=
  [s.a, s.b, s.c, s.d, s.e, s.f, s.g, s.h].flatMap Bytes.ofUInt32

@[simp] theorem State.length_toBytes (s : State) : s.toBytes.length = 32 := rfl

end Sha256

/-- The digest of a message, 32 octets. -/
def sha256 (message : Bytes) : Bytes :=
  ((Bytes.chunks 64 (Sha256.pad message)).foldl Sha256.compress Sha256.initial).toBytes

@[simp] theorem length_sha256 (message : Bytes) : (sha256 message).length = 32 :=
  Sha256.State.length_toBytes _

end Ctap.Crypto
