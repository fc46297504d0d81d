import Ctap.Cbor.Writer

/-!
# Reading CBOR

A reader takes one item from the front of a string and leaves the rest. Heads need not be in the
shortest form, and strings, arrays and maps may have indefinite length. At most 256 arrays, maps and
tags may be nested. Tagged octet strings that stand for integers of at most 128 bits are read as
integers; those beyond 64 bits stay tagged, without leading zeros. Undefined reads as null, and
unknown simple values are refused.

## Main definitions

* `Head`, `readHead`: the beginning of an item.
* `readValue`: an item with a bound on nesting.
* `Value.decode?`: the first item of a string.
-/

namespace Ctap.Cbor

/-- A parser: what it read, and the rest of the string. -/
abbrev Reader (α : Type) : Type := Bytes → Option (α × Bytes)

/-- Takes exactly `n` octets. -/
def readOctets (n : Nat) : Reader Bytes := fun input =>
  let octets := input.take n
  if octets.length = n then some (octets, input.drop n) else none

/-- The beginning of an item. A length is missing where it is indefinite. -/
inductive Head where
  | unsigned (n : UInt64)
  /-- The negative integer `-1 - n`. -/
  | negative (n : UInt64)
  | bytes (length : Option Nat)
  | text (length : Option Nat)
  | array (length : Option Nat)
  | map (length : Option Nat)
  | tag (number : UInt64)
  | simple (number : UInt8)
  | float (bits : UInt64)
  | stop
deriving DecidableEq, Repr, Inhabited

/-- The argument in a head: a number and the octets it was written in, or none at all. -/
inductive Argument where
  /-- A number written in so many octets after the first. -/
  | value (n width : Nat)
  | missing
deriving DecidableEq, Repr, Inhabited

/-- Reads the argument announced by the low five bits of an initial octet. -/
def readArgument (low : Nat) : Reader Argument := fun input =>
  if low < 24 then some (.value low 0, input)
  else if low < 28 then
    match readOctets (1 <<< (low - 24)) input with
    | none => none
    | some (octets, rest) => some (.value (Bytes.toNat octets) octets.length, rest)
  else if low = 31 then some (.missing, input)
  else none

/-- The head with a major type and an argument. -/
def Head.of? : Major → Argument → Option Head
  | .unsigned, .value n _ => some (unsigned (UInt64.ofNat n))
  | .negative, .value n _ => some (negative (UInt64.ofNat n))
  | .bytes, .value n _ => some (bytes (some n))
  | .bytes, .missing => some (bytes none)
  | .text, .value n _ => some (text (some n))
  | .text, .missing => some (text none)
  | .array, .value n _ => some (array (some n))
  | .array, .missing => some (array none)
  | .map, .value n _ => some (map (some n))
  | .map, .missing => some (map none)
  | .tag, .value n _ => some (tag (UInt64.ofNat n))
  | .simple, .value n 2 => some (float (Binary.ofHalf (UInt16.ofNat n)))
  | .simple, .value n 4 => some (float (Binary.ofSingle (UInt32.ofNat n)))
  | .simple, .value n 8 => some (float (UInt64.ofNat n))
  | .simple, .value n _ => some (simple (UInt8.ofNat n))
  | .simple, .missing => some stop
  | _, .missing => none

/-- The major type in an initial octet. -/
def Major.ofOctet (octet : UInt8) : Major :=
  match octet.toNat / 32 with
  | 0 => unsigned
  | 1 => negative
  | 2 => bytes
  | 3 => text
  | 4 => array
  | 5 => map
  | 6 => tag
  | _ => simple

/-- Reads a head. -/
def readHead : Reader Head
  | [] => none
  | octet :: rest => do
    let (argument, rest) ← readArgument (octet.toNat % 32) rest
    let head ← Head.of? (Major.ofOctet octet) argument
    return (head, rest)

/-- The length field if the head begins a string of the kind that is wanted. -/
def Head.stringLength? (wantText : Bool) : Head → Option (Option Nat)
  | bytes length => if wantText then none else some length
  | text length => if wantText then some length else none
  | _ => none

/-- The pieces of a string of indefinite length. Strings of indefinite length may be nested in it;
`depth` of them are open. Every step takes at least one octet, which bounds the steps. -/
def readPieces (wantText : Bool) : Nat → Nat → Reader (List Bytes)
  | 0, _, _ => none
  | steps + 1, depth, input => do
    let (head, rest) ← readHead input
    if head = .stop then
      if depth ≤ 1 then return ([], rest) else readPieces wantText steps (depth - 1) rest
    else
      match ← head.stringLength? wantText with
      | none => readPieces wantText steps (depth + 1) rest
      | some length =>
        let (piece, rest) ← readOctets length rest
        let (pieces, rest) ← readPieces wantText steps depth rest
        return (piece :: pieces, rest)

/-- The pieces of a string whose head has been read. -/
def readString (wantText : Bool) (length : Option Nat) : Reader (List Bytes) := fun input =>
  match length with
  | none => readPieces wantText input.length 1 input
  | some n => (readOctets n input).map fun (piece, rest) => ([piece], rest)

/-- The text in octets, which must be well-formed. -/
def textOf? (octets : Bytes) : Option String := String.fromUTF8? ⟨octets.toArray⟩

/-- The text in several pieces, each well-formed on its own. -/
def joinTexts? : List Bytes → Option String
  | [] => some ""
  | piece :: rest => do
    let first ← textOf? piece
    let others ← joinTexts? rest
    return first ++ others

/-- A magnitude of at most 128 bits as a value: an integer if it fits, and the tag with the octets
of the magnitude otherwise. -/
def bignumValue (negated : Bool) (magnitude : Nat) : Value :=
  if magnitude < UInt64.size then
    if negated then .negative (UInt64.ofNat magnitude) else .unsigned (UInt64.ofNat magnitude)
  else
    .tag (if negated then 3 else 2) (.bytes ((Bytes.ofNat 16 magnitude).dropWhile (· == 0)))

/-- Reads the content of an integer tag if it is an octet string of at most 16 octets. Negative ones
must fit 127 bits. The outer option is empty for any other content. -/
def readBignum? (number : UInt64) (input : Bytes) : Option (Option (Value × Bytes)) :=
  if number = 2 ∨ number = 3 then
    match readHead input with
    | some (.bytes (some n), rest) =>
      if n ≤ 16 then
        some <| match readOctets n rest with
          | none => none
          | some (octets, rest) =>
            let magnitude := Bytes.toNat octets
            if number = 3 ∧ 1 <<< 127 ≤ magnitude then none
            else some (bignumValue (number == 3) magnitude, rest)
      else none
    | _ => none
  else none

/-- Reads `count` items in a row. -/
def readMany {α : Type} (one : Reader α) : Nat → Reader (List α)
  | 0, input => some ([], input)
  | count + 1, input => do
    let (item, rest) ← one input
    let (items, rest) ← readMany one count rest
    return (item :: items, rest)

/-- Reads items up to the break mark. Every item takes at least one octet, which bounds their
number. -/
def readUntilStop {α : Type} (one : Reader α) : Nat → Reader (List α)
  | _, 0xFF :: rest => some ([], rest)
  | 0, _ => none
  | steps + 1, input => do
    let (item, rest) ← one input
    let (items, rest) ← readUntilStop one steps rest
    return (item :: items, rest)

/-- Reads the items of an array or the entries of a map. -/
def readItems {α : Type} (one : Reader α) (length : Option Nat) : Reader (List α) := fun input =>
  match length with
  | some n => readMany one n input
  | none => readUntilStop one input.length input

/-- Reads a key and its value. -/
def readEntry (one : Reader Value) : Reader (Value × Value) := fun input => do
  let (key, rest) ← one input
  let (value, rest) ← one rest
  return ((key, value), rest)

/-- Reads an item that holds no other items, after its head. -/
def readAtom : Head → Reader Value
  | .unsigned n, input => some (.unsigned n, input)
  | .negative n, input => some (.negative n, input)
  | .bytes length, input =>
    (readString false length input).map fun (pieces, rest) => (.bytes pieces.flatten, rest)
  | .text length, input => do
    let (pieces, rest) ← readString true length input
    let characters ← joinTexts? pieces
    return (.text characters, rest)
  | .float bits, input => some (.float bits, input)
  | .simple 20, input => some (.bool false, input)
  | .simple 21, input => some (.bool true, input)
  | .simple 22, input => some (.null, input)
  | .simple 23, input => some (.null, input)
  | _, _ => none

/-- Reads an array, a map or a tagged value, after its head; the items inside are read by `one`. -/
def readContainer (one : Reader Value) : Head → Reader Value
  | .array length, input =>
    (readItems one length input).map fun (items, rest) => (.array items, rest)
  | .map length, input =>
    (readItems (readEntry one) length input).map fun (entries, rest) => (.map entries, rest)
  | .tag number, input => (one input).map fun (content, rest) => (.tag number content, rest)
  | _, _ => none

/-- Whether a head begins an item that holds other items. -/
def Head.isContainer : Head → Bool
  | array _ | map _ | tag _ => true
  | _ => false

/-- Reads an item in which at most `depth` containers are nested. -/
def readValue : Nat → Reader Value
  | depth, input =>
    match readHead input with
    | none => none
    | some (head, rest) =>
      match head, depth with
      | .tag number, depth =>
        match readBignum? number rest with
        | some result => result
        | none =>
          match depth with
          | 0 => none
          | depth + 1 => readContainer (readValue depth) (.tag number) rest
      | head, 0 => if head.isContainer then none else readAtom head rest
      | head, depth + 1 =>
        if head.isContainer then readContainer (readValue depth) head rest
        else readAtom head rest

/-- How many containers may be nested. -/
def maxDepth : Nat := 256

/-- The first item of a string; what follows it is ignored. -/
def Value.decode? (input : Bytes) : Option Value := (readValue maxDepth input).map (·.1)

end Ctap.Cbor
