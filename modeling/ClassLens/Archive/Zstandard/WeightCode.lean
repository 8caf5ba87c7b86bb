/-
Prefix codes that are given by the weight of each symbol.

A symbol of weight zero has no word; of the others, one more in weight is one bit
less in length. The words are numbered from the lightest symbol on. The last
symbol that has a word is not written, since its weight is what is missing for the
words to be complete.
-/
import ClassLens.Archive.Zstandard.Backward
import ClassLens.Archive.Zstandard.StateCode
import ClassLens.NatSum

set_option autoImplicit false

namespace ClassLens.Archive.Zstandard

/-- A code: for every sequence of so many bits, the symbol whose word it starts
with, and the length of the word. -/
structure WeightCode where
  width : Nat
  words : Array (UInt8 × Nat)
  deriving DecidableEq

namespace WeightCode

/-! ## Weights -/

/-- How many sequences of bits start with the word of a symbol. -/
def cells (weight : Nat) : Nat :=
  if weight = 0 then 0 else 1 <<< (weight - 1)

/-- The longest word. -/
def maxWidth : Nat := 12

/-- The code with the given weights, the last of which is left out. The total must
come to a power of two by it, and the two longest words at least must differ in no
more than their last bit. -/
def ofWeights? (written : List Nat) : Option WeightCode :=
  let total := natSum (written.map cells)
  let width := total.log2 + 1
  let missing := (1 <<< width) - total
  let weights := written ++ [missing.log2 + 1]
  let lightest := weights.count 1
  if written.all (· ≤ maxWidth) ∧ 0 < total ∧ width ≤ maxWidth ∧
      cells (missing.log2 + 1) = missing ∧ 2 ≤ lightest ∧ lightest % 2 = 0 then
    some ⟨width, ((List.range width).flatMap fun k =>
      (weights.zipIdx.filter (·.1 == k + 1)).flatMap fun (weight, symbol) =>
        List.replicate (cells weight) (UInt8.ofNat symbol, width + 1 - weight)).toArray⟩
  else none

/-! ## Written weights -/

/-- The most weights that are written. -/
def maxWeights : Nat := 255

/-- Reads weights by two states that take turns, newest first. They end where
there are not enough bits for the next state, and the other state has the last
weight. -/
def readTurns (code : StateCode) :
    Nat → CodeState → CodeState → List Nat → BitReader (List Nat)
  | 0, _, _, _ => BitReader.fail
  | fuel + 1, state, other, weights => do
    let weights := state.symbol :: weights
    match ← (code.after state).attempt with
    | none => return other.symbol :: weights
    | some next => readTurns code fuel other next weights

/-- Reads weights by two states. -/
def readPacked (code : StateCode) : BitReader (List Nat) := do
  let first ← code.start
  let second ← code.start
  let weights ← readTurns code (maxWeights - 1) first second []
  return weights.reverse

/-- The weights that are packed in some bytes: first their code and then the
states. -/
def packedWeights? (bytes : ByteArray) : Option (List Nat) := do
  let (code, start) ← StateCode.ofBytes? 256 6 bytes
  readSome? (readPacked code) (bytes.extract start bytes.size)

/-- The first weights of some bytes that have two each, high half first. -/
def plainWeights (count : Nat) (bytes : ByteArray) : List Nat :=
  (bytes.data.toList.flatMap fun byte => [byte.toNat / 16, byte.toNat % 16]).take count

/-- The code that some bytes start with, and how many bytes it takes. The first
byte says how the weights are written and how many there are of them, or of their
bytes. -/
def ofBytes? (bytes : ByteArray) : Option (WeightCode × Nat) := do
  let first := (← bytes[0]?).toNat
  let count := first - 127
  let stop := 1 + if first < 128 then first else (count + 1) / 2
  if bytes.size < stop then none
  else
    let written := bytes.extract 1 stop
    let weights ← if first < 128 then packedWeights? written
      else some (plainWeights count written)
    return (← ofWeights? weights, stop)

/-! ## Words -/

/-- The next bits as a number, as if zeros followed the last one. -/
def upcoming (data : Bits) : Nat → Nat → Nat → Nat
  | 0, _, high => high
  | n + 1, place, high => upcoming data n (place + 1) (2 * high + (data.at? place).getD 0)

/-- Reads a word and gives its symbol. -/
def readSymbol (c : WeightCode) : BitReader UInt8 :=
  fun data place =>
    match c.words[upcoming data c.width place 0]? with
    | none => .error .meaningless
    | some (symbol, width) =>
      if place + width ≤ data.length then .ok (symbol, place + width) else .error .ended

/-- Reads several words. -/
def readSymbols (c : WeightCode) : Nat → ByteArray → BitReader ByteArray
  | 0, output => pure output
  | n + 1, output => do
    let symbol ← c.readSymbol
    readSymbols c n (output.push symbol)

/-- The symbols of so many words that some bytes consist of. -/
def symbols? (c : WeightCode) (count : Nat) (bytes : ByteArray) : Option ByteArray :=
  readWhole? (c.readSymbols count ByteArray.empty) bytes

end WeightCode

end ClassLens.Archive.Zstandard
