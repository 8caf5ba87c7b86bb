/-
Unpacking bzip2 streams.

A stream says how great its blocks may be, and then has the blocks, one after the
other, with a mark in front of each and another one at the end. The checksums of
the blocks make up the checksum of the stream. What follows the stream is not
looked at.
-/
import ClassLens.Archive.Bzip2.Block

set_option autoImplicit false

namespace ClassLens.Archive.Bzip2

/-- What a stream starts with. -/
def signature : Nat := 0x425a68

/-- What stands in front of a block. -/
def blockMark : Nat := 0x314159265359

/-- What stands behind the last block. -/
def endMark : Nat := 0x177245385090

/-- The checksum of several blocks with one more. -/
def combined (before checksum : UInt32) : UInt32 :=
  ((before <<< 1) ||| (before >>> 31)) ^^^ checksum

/-- Reads the blocks up to the end, which has their checksum. Every block takes
more than one bit, so the fuel is the number of bits. -/
def readBlocks (limit : Nat) : Nat → UInt32 → ByteArray → BitReader ByteArray
  | 0, _, _ => BitReader.fail
  | fuel + 1, register, output => do
    let mark ← BitReader.bits 48
    if mark = blockMark then
      let (checksum, block) ← readBlock limit
      readBlocks limit fuel (combined register checksum) (output ++ block)
    else if mark = endMark then
      let stored ← BitReader.bits 32
      if register = UInt32.ofNat stored then return output else BitReader.fail
    else BitReader.fail

/-- Reads a stream: its size of blocks is a digit that counts 100,000 bytes. -/
def readStream : BitReader ByteArray := do
  let mark ← BitReader.bits 24
  let digit ← BitReader.bits 8
  if mark = signature ∧ '1'.toNat ≤ digit ∧ digit ≤ '9'.toNat then
    readBlocks (100000 * (digit - '0'.toNat)) (← BitReader.length) 0 ByteArray.empty
  else BitReader.fail

/-- What a stream says. -/
def unpack? (data : ByteArray) : Option ByteArray :=
  match readStream ⟨.highFirst, data⟩ 0 with
  | .ok (output, _) => some output
  | .error _ => none

end ClassLens.Archive.Bzip2
