/-
Unpacking deflated data.

The data is a sequence of blocks. A stored block holds its bytes as they are; in
the others the bytes are written as literals and as copies of what came earlier,
under prefix codes that are fixed or are written in front of the block. Data that
means nothing gives nothing. What follows the last block is not looked at.

There are two formats, and they differ in how far back and how long a copy may
be. Whoever reads the wide one is also less strict: codes may leave words out,
copies may begin in front of the first byte, and data that ends before its last
block does says what it has said so far.
-/
import ClassLens.Archive.BackCopy
import ClassLens.Archive.PrefixCode

set_option autoImplicit false

namespace ClassLens.Archive

/-! ## Formats -/

/-- What the two formats do not share. -/
structure DeflateFormat where
  /-- The shortest copy of each length symbol, and how many bits say how much
  longer it is. -/
  copyLengths : Array (Nat × Nat)
  /-- The shortest distance of each distance symbol, and how many bits say how
  much farther it is. -/
  copyDistances : Array (Nat × Nat)
  /-- Whether codes may only have the symbols that mean something, and must have
  a word for every sequence of bits. -/
  hasStrictCodes : Bool
  /-- Whether copies may begin in front of the first byte. -/
  reachesBeyond : Bool
  /-- Whether the data may end before its last block does. -/
  mayEndEarly : Bool

namespace DeflateFormat

/-- The lengths that both formats have. -/
def sharedLengths : Array (Nat × Nat) :=
  #[(3, 0), (4, 0), (5, 0), (6, 0), (7, 0), (8, 0), (9, 0), (10, 0), (11, 1), (13, 1),
    (15, 1), (17, 1), (19, 2), (23, 2), (27, 2), (31, 2), (35, 3), (43, 3), (51, 3), (59, 3),
    (67, 4), (83, 4), (99, 4), (115, 4), (131, 5), (163, 5), (195, 5), (227, 5)]

/-- The distances that both formats have. -/
def sharedDistances : Array (Nat × Nat) :=
  #[(1, 0), (2, 0), (3, 0), (4, 0), (5, 1), (7, 1), (9, 2), (13, 2), (17, 3), (25, 3),
    (33, 4), (49, 4), (65, 5), (97, 5), (129, 6), (193, 6), (257, 7), (385, 7), (513, 8),
    (769, 8), (1025, 9), (1537, 9), (2049, 10), (3073, 10), (4097, 11), (6145, 11),
    (8193, 12), (12289, 12), (16385, 13), (24577, 13)]

/-- Copies of up to 258 bytes from up to 32 KiB back. -/
def narrow : DeflateFormat where
  copyLengths := sharedLengths.push (258, 0)
  copyDistances := sharedDistances
  hasStrictCodes := true
  reachesBeyond := false
  mayEndEarly := false

/-- Copies of up to 64 KiB from up to 64 KiB back. -/
def wide : DeflateFormat where
  copyLengths := sharedLengths.push (3, 16)
  copyDistances := sharedDistances ++ #[(32769, 14), (49153, 14)]
  hasStrictCodes := false
  reachesBeyond := true
  mayEndEarly := true

end DeflateFormat

/-! ## Codes of a block -/

/-- The codes of a block: of literals and lengths, and of distances. -/
structure BlockCodes where
  literals : PrefixCode
  distances : PrefixCode

/-- The codes that need not be written. -/
def fixedCodes : BlockCodes where
  literals := .ofLengths (List.replicate 144 8 ++ List.replicate 112 9 ++
    List.replicate 24 7 ++ List.replicate 8 8)
  distances := .ofLengths (List.replicate 32 5)

/-- The order in which the lengths of the code for lengths are written. -/
def lengthOrder : List Nat :=
  [16, 17, 18, 0, 8, 7, 9, 6, 10, 5, 11, 4, 12, 3, 13, 2, 14, 1, 15]

/-- The lengths of the code for lengths by symbol, given those that are written. -/
def orderedLengths (written : List Nat) : List Nat :=
  (List.range 19).map fun symbol =>
    ((lengthOrder.zip written).find? (·.1 == symbol)).elim 0 (·.2)

/-- Reads code lengths until there are enough of them, newest first. A length
may be given once and stand for several: the last one again, or zeros. Every
word adds at least one length, so the fuel is how many are wanted. -/
def readLengths (c : PrefixCode) (wanted : Nat) : Nat → List Nat → BitReader (List Nat)
  | 0, read => pure read
  | fuel + 1, read =>
    if wanted ≤ read.length then pure read
    else do
      let symbol ← c.read
      if symbol < 16 then readLengths c wanted fuel (symbol :: read)
      else
        let (length, times) ←
          if symbol = 16 then do
            let extra ← BitReader.bits 2
            match read with
            | [] => BitReader.fail
            | last :: _ => pure (last, 3 + extra)
          else if symbol = 17 then do
            let extra ← BitReader.bits 3
            pure (0, 3 + extra)
          else do
            let extra ← BitReader.bits 7
            pure (0, 11 + extra)
        -- a run may not go beyond the last length that is wanted
        if wanted < read.length + times then BitReader.fail
        else readLengths c wanted fuel (List.replicate times length ++ read)

/-- The symbol that ends a block. -/
def endOfBlock : Nat := 256

/-- Reads the codes that are written in front of a block. -/
def DeflateFormat.writtenCodes (f : DeflateFormat) : BitReader BlockCodes := do
  let literals := 257 + (← BitReader.bits 5)
  let distances := 1 + (← BitReader.bits 5)
  let lengths := 4 + (← BitReader.bits 4)
  -- there is room for two more symbols of each sort, which have no meaning
  if f.hasStrictCodes && (286 < literals || 30 < distances) then BitReader.fail
  else
    let written ← BitReader.numbers 3 lengths
    let lengthCode := PrefixCode.ofLengths (orderedLengths written)
    if f.hasStrictCodes && !lengthCode.isComplete then BitReader.fail
    else
      let wanted := literals + distances
      let read ← readLengths lengthCode wanted wanted []
      let all := read.reverse
      let codes : BlockCodes :=
        ⟨.ofLengths (all.take literals), .ofLengths (all.drop literals)⟩
      -- a block whose end has no word would never end
      if all[endOfBlock]?.getD 0 = 0 then BitReader.fail
      else if f.hasStrictCodes && !(codes.literals.isUsable && codes.distances.isUsable) then
        BitReader.fail
      else pure codes

/-! ## Words -/

/-- Reads the number that a symbol and the bits after it stand for. -/
def readExtended (table : Array (Nat × Nat)) (symbol : Nat) : BitReader Nat :=
  match table[symbol]? with
  | none => BitReader.fail
  | some (base, width) => do
    let extra ← BitReader.bits width
    return base + extra

/-- What one word of a block says. -/
inductive Token where
  | literal (byte : UInt8)
  | copy (length distance : Nat)
  | stop
  deriving DecidableEq, Repr

/-- Reads what one word of a block says. -/
def DeflateFormat.readToken (f : DeflateFormat) (codes : BlockCodes) : BitReader Token := do
  let symbol ← codes.literals.read
  if symbol < 256 then return .literal (UInt8.ofNat symbol)
  else if symbol = endOfBlock then return .stop
  else
    let length ← readExtended f.copyLengths (symbol - 257)
    let distanceSymbol ← codes.distances.read
    let distance ← readExtended f.copyDistances distanceSymbol
    return .copy length distance

/-! ## Blocks -/

/-- What was written so far, and the place behind what was read or why no more
could be read. -/
structure Progress where
  output : ByteArray
  next : Except Stop Nat

/-- Writes out a block of words. Every word takes at least one bit, so the fuel
is the number of bits. -/
def DeflateFormat.wordBlock (f : DeflateFormat) (codes : BlockCodes) (data : Bits) :
    Nat → ByteArray → Nat → Progress
  | 0, output, _ => ⟨output, .error .ended⟩
  | fuel + 1, output, place =>
    match f.readToken codes data place with
    | .error stop => ⟨output, .error stop⟩
    | .ok (.literal byte, place) => f.wordBlock codes data fuel (output.push byte) place
    | .ok (.copy length distance, place) =>
      if output.size < distance && !f.reachesBeyond then ⟨output, .error .meaningless⟩
      else f.wordBlock codes data fuel (copyBack distance length output) place
    | .ok (.stop, place) => ⟨output, .ok place⟩

/-- Reads the size of a stored block, which is written a second time with all
bits turned over. -/
def storedSize : BitReader Nat := do
  BitReader.align
  let size ← BitReader.bits 16
  let turned ← BitReader.bits 16
  if size + turned = 0xffff then return size else BitReader.fail

/-- Writes out a stored block. -/
def storedBlock (data : Bits) (output : ByteArray) (place : Nat) : Progress :=
  match storedSize data place with
  | .error stop => ⟨output, .error stop⟩
  | .ok (size, place) =>
    let start := place / 8
    let stop := start + size
    if stop ≤ data.bytes.size then ⟨output ++ data.bytes.extract start stop, .ok (8 * stop)⟩
    else ⟨output ++ data.bytes.extract start data.bytes.size, .error .ended⟩

/-- Writes out a block of some kind. -/
def DeflateFormat.block (f : DeflateFormat) (kind : Nat) (data : Bits) (output : ByteArray)
    (place : Nat) : Progress :=
  let fuel := data.length + 1
  match kind with
  | 0 => storedBlock data output place
  | 1 => f.wordBlock fixedCodes data fuel output place
  | 2 =>
    match f.writtenCodes data place with
    | .error stop => ⟨output, .error stop⟩
    | .ok (codes, place) => f.wordBlock codes data fuel output place
  | _ => ⟨output, .error .meaningless⟩

/-- Reads the opening of a block: whether it is the last one, and its kind. -/
def blockHeader : BitReader (Bool × Nat) := do
  let final ← BitReader.bit
  let kind ← BitReader.bits 2
  return (final == 1, kind)

/-- Writes out the blocks up to the last one. Every block takes at least one
bit, so the fuel is the number of bits. -/
def DeflateFormat.blocks (f : DeflateFormat) (data : Bits) : Nat → ByteArray → Nat → Progress
  | 0, output, _ => ⟨output, .error .ended⟩
  | fuel + 1, output, place =>
    match blockHeader data place with
    | .error stop => ⟨output, .error stop⟩
    | .ok ((isLast, kind), place) =>
      match f.block kind data output place with
      | ⟨output, .error stop⟩ => ⟨output, .error stop⟩
      | ⟨output, .ok place⟩ =>
        if isLast then ⟨output, .ok place⟩ else f.blocks data fuel output place

/-- What deflated data says. -/
def DeflateFormat.inflate? (f : DeflateFormat) (data : ByteArray) : Option ByteArray :=
  let bits : Bits := ⟨.lowFirst, data⟩
  let written := f.blocks bits (bits.length + 1) ByteArray.empty 0
  match written.next with
  | .ok _ => some written.output
  | .error .ended => if f.mayEndEarly then some written.output else none
  | .error .meaningless => none

end ClassLens.Archive
