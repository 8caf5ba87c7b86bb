/-
A block of a bzip2 stream.

It starts with its checksum, whether it is scrambled, the row of its plain
rotation and the bytes it has. Then follow the prefix codes of its column and the
order in which they are used, each for fifty symbols, and then the symbols.
-/
import ClassLens.Archive.Bzip2.Column
import ClassLens.Archive.Bzip2.Runs
import ClassLens.Archive.Bzip2.Scramble
import ClassLens.Archive.PrefixCode

set_option autoImplicit false

namespace ClassLens.Archive.Bzip2

/-! ## Checksums -/

/-- Shifts the register by one bit, highest first. A bit that falls out subtracts
the polynomial. -/
def shiftBit (register : UInt32) : UInt32 :=
  if register &&& 0x80000000 = 0 then register <<< 1 else (register <<< 1) ^^^ 0x04c11db7

/-- Takes a byte into the register. -/
def addByte (register : UInt32) (byte : UInt8) : UInt32 :=
  Nat.repeat shiftBit 8 (register ^^^ (byte.toUInt32 <<< 24))

/-- The checksum of a block. -/
def checksum (block : ByteArray) : UInt32 :=
  ~~~(block.foldl addByte 0xffffffff)

/-! ## Bytes and codes -/

/-- Reads which of `n` things there are. -/
def presentAmong (n : Nat) : BitReader (List Nat) := do
  let present ← BitReader.numbers 1 n
  return (present.zipIdx.filter (·.1 == 1)).map (·.2)

/-- Reads the bytes that there are: first which rows of sixteen have any, and
then which these are. -/
def readAlphabet : BitReader (List UInt8) := do
  let rows ← presentAmong 16
  let bytes ← rows.mapM fun row => do
    let columns ← presentAmong 16
    return columns.map fun column => UInt8.ofNat (16 * row + column)
  return bytes.flatten

/-- Reads how many ones stand in front of the next zero, which must be fewer than
the limit. -/
def readOnes : Nat → Nat → BitReader Nat
  | 0, _ => BitReader.fail
  | n + 1, read => do
    let bit ← BitReader.bit
    if bit = 0 then return read else readOnes n (read + 1)

/-- Reads which code is used next, several times. A code is given by its place in
a list of which the last one used comes to the front. -/
def readChoices : Nat → List Nat → BitReader (List Nat)
  | 0, _ => pure []
  | n + 1, recent => do
    let place ← readOnes recent.length 0
    let choice := recent[place]?.getD 0
    let rest ← readChoices n (choice :: recent.eraseIdx place)
    return choice :: rest

/-- The longest code word. -/
def maxWord : Nat := 20

/-- Reads the next length, which is given by the steps from the one before it.
Two bits are read in every step, so the fuel is the number of bits. -/
def readLength : Nat → Nat → BitReader Nat
  | 0, _ => BitReader.fail
  | fuel + 1, length => do
    if length = 0 || maxWord < length then BitReader.fail
    else
      let more ← BitReader.bit
      if more = 0 then return length
      else
        let down ← BitReader.bit
        readLength fuel (if down = 0 then length + 1 else length - 1)

/-- Reads the lengths of several words. -/
def readLengths (fuel : Nat) : Nat → Nat → BitReader (List Nat)
  | 0, _ => pure []
  | n + 1, before => do
    let length ← readLength fuel before
    let rest ← readLengths fuel n length
    return length :: rest

/-- Reads a code for some symbols. -/
def readCode (symbols : Nat) : BitReader PrefixCode := do
  let start ← BitReader.bits 5
  let lengths ← readLengths (← BitReader.length) symbols start
  return PrefixCode.ofLengths lengths

/-- Reads several codes. -/
def readCodes (symbols : Nat) : Nat → BitReader (List PrefixCode)
  | 0 => pure []
  | n + 1 => do
    let first ← readCode symbols
    let rest ← readCodes symbols n
    return first :: rest

/-! ## The column -/

/-- How many symbols a code is used for before the next one. -/
def groupSize : Nat := 50

/-- The codes that are still to be used, the first one for some more symbols. -/
structure CodeOrder where
  codes : List PrefixCode
  left : Nat

/-- The code of the next symbol, and the codes after it. -/
def CodeOrder.next? (o : CodeOrder) : Option (PrefixCode × CodeOrder) :=
  match o.codes with
  | [] => none
  | code :: rest =>
    some (code, if o.left ≤ 1 then ⟨rest, groupSize⟩ else ⟨code :: rest, o.left - 1⟩)

/-- Reads the symbols of a column up to the one that ends it. The first two are
the digits of runs; the others are the places of the list, without the front.
Every symbol takes at least one bit, so the fuel is the number of bits. -/
def readColumn (limit stop : Nat) : Nat → CodeOrder → Column → BitReader ByteArray
  | 0, _, _ => BitReader.fail
  | fuel + 1, order, column =>
    match order.next? with
    | none => BitReader.fail
    | some (code, order) => do
      let symbol ← code.read
      if symbol < 2 then readColumn limit stop fuel order (column.lengthen (symbol + 1))
      else if symbol = stop then BitReader.ofOption ((column.flush? limit).map (·.bytes))
      else
        let column ← BitReader.ofOption (column.use? limit (symbol - 1))
        readColumn limit stop fuel order column

/-- The number of choices that count. What is read beyond is not made use of. -/
def maxChoices : Nat := 18002

/-- Reads the bytes, the codes and the symbols of a column with a limit to its
size. -/
def readSymbols (limit : Nat) : BitReader ByteArray := do
  let alphabet ← readAlphabet
  let codeCount ← BitReader.bits 3
  let choiceCount ← BitReader.bits 15
  if alphabet.isEmpty || codeCount < 2 || 6 < codeCount || choiceCount = 0 then BitReader.fail
  else
    let choices ← readChoices choiceCount (List.range codeCount)
    let codes ← readCodes (alphabet.length + 2) codeCount
    let used := (choices.take maxChoices).filterMap fun choice => codes[choice]?
    readColumn limit (alphabet.length + 1) (← BitReader.length) ⟨used, groupSize⟩
      (Column.start alphabet)

/-! ## The block -/

/-- Reads a block with a limit to the size of its column, and its checksum. -/
def readBlock (limit : Nat) : BitReader (UInt32 × ByteArray) := do
  let stored ← BitReader.bits 32
  let scrambled ← BitReader.bit
  let row ← BitReader.bits 24
  let column ← readSymbols limit
  if column.size ≤ row then BitReader.fail
  else
    let sorted := unsorted column row
    let block ← BitReader.ofOption
      (expandRuns? (if scrambled = 1 then scramble sorted else sorted))
    if checksum block = UInt32.ofNat stored then return (checksum block, block)
    else BitReader.fail

end ClassLens.Archive.Bzip2
