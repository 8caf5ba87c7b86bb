/-
Unpacking Zstandard data.

The data is a sequence of frames, and some of them are for others and are left
out. A frame says how far back copies may go, how great it is and whether it has a
checksum, and then has blocks. A block holds its bytes as they are, or one byte
over and over, or literals and sequences.
-/
import ClassLens.Archive.Zstandard.Hash
import ClassLens.Archive.Zstandard.Literals
import ClassLens.Archive.Zstandard.Sequences

set_option autoImplicit false

namespace ClassLens.Archive.Zstandard

/-! ## Blocks -/

/-- What the blocks of a frame have written, and what they leave for later
ones. -/
structure Written where
  output : ByteArray
  words : Option WeightCode
  codes : Option SequenceCodes
  recent : Recent

/-- The beginning of a frame. -/
def Written.start : Written :=
  ⟨ByteArray.empty, none, none, .start⟩

/-- The opening of a block. -/
structure BlockHeader where
  isLast : Bool
  kind : Nat
  size : Nat
  deriving DecidableEq, Repr

namespace BlockHeader

/-- The size of a header. -/
def fixedSize : Nat := 3

/-- The header at a place. -/
def at? (data : ByteArray) (place : Nat) : Option BlockHeader :=
  if place + fixedSize ≤ data.size then
    let n := littleEndian data place fixedSize
    some ⟨n % 2 == 1, n / 2 % 4, n / 8⟩
  else none

/-- How many bytes the block takes behind its header. -/
def packedSize (h : BlockHeader) : Nat :=
  if h.kind = 1 then 1 else h.size

end BlockHeader

namespace Written

/-- Writes a block of literals and sequences. -/
def addPacked? (w : Written) (limit : Nat) (block : ByteArray) : Option Written := do
  let literals ← Literals.ofBlock? limit w.words block
  let sequences ← Sequences.ofBlock? w.codes w.recent block literals.stop
  let output ← Sequences.write? literals.bytes sequences.all 0 w.output
  if w.output.size + limit < output.size then none
  else return ⟨output, literals.code, sequences.codes, sequences.recent⟩

/-- Writes a block. Neither what it takes nor what it writes is more than the
limit. -/
def add? (w : Written) (limit : Nat) (h : BlockHeader) (block : ByteArray) : Option Written :=
  if limit < h.packedSize then none
  else
    match h.kind with
    | 0 => some { w with output := w.output ++ block }
    | 1 => do
      let byte ← block[0]?
      if limit < h.size then none
      else return { w with output := Nat.repeat (·.push byte) h.size w.output }
    | 2 => if h.size = 0 then some w else w.addPacked? limit block
    | _ => none

end Written

/-! ## Headers -/

/-- What a frame says of itself. -/
structure FrameHeader where
  /-- How far back copies may go. -/
  window : Nat
  size : Option Nat
  hasChecksum : Bool
  /-- The number of the text that copies may begin in, or zero. -/
  dictionary : Nat
  stop : Nat
  deriving DecidableEq, Repr

namespace FrameHeader

/-- The four bytes that a frame starts with. -/
def signature : Nat := 0xfd2fb528

/-- The greatest window that can be had. -/
def maxWindow : Nat := 0x8000001

/-- The window that a byte stands for: a power of two and some eighths of it. -/
def windowOf (byte : Nat) : Nat :=
  let power := 1 <<< (10 + byte / 8)
  power + power / 8 * (byte % 8)

/-- How many bytes the number of the dictionary takes. -/
def dictionaryWidth (flags : Nat) : Nat :=
  match flags % 4 with
  | 3 => 4
  | n => n

/-- How many bytes the size takes. -/
def sizeWidth (flags : Nat) (isSingle : Bool) : Nat :=
  match flags / 64 with
  | 0 => if isSingle then 1 else 0
  | n => 1 <<< n

/-- The size that stands at a place. -/
def sizeAt (data : ByteArray) (place width : Nat) : Option Nat :=
  match width with
  | 0 => none
  | 2 => some (littleEndian data place 2 + 256)
  | n => some (littleEndian data place n)

/-- The header at a place behind the signature. The window of a frame in a single
piece is the whole of it. -/
def at? (data : ByteArray) (place : Nat) : Option FrameHeader := do
  let flags := (← data[place]?).toNat
  let isSingle := flags.testBit 5
  let dictionaryPlace := place + if isSingle then 1 else 2
  let sizePlace := dictionaryPlace + dictionaryWidth flags
  let stop := sizePlace + sizeWidth flags isSingle
  if flags.testBit 3 ∨ data.size < stop then none
  else
    let size := sizeAt data sizePlace (sizeWidth flags isSingle)
    return {
      window := if isSingle then size.getD 0 else windowOf (littleEndian data (place + 1) 1)
      size := size
      hasChecksum := flags.testBit 2
      dictionary := littleEndian data dictionaryPlace (dictionaryWidth flags)
      stop := stop }

/-- Whether the frame is so small that it is written in one go. It needs no window
then. -/
def isSmall (h : FrameHeader) : Bool :=
  h.size.any (· ≤ 32)

/-- The greatest block of the frame. -/
def maxBlock (h : FrameHeader) : Nat :=
  min h.window 0x20000

end FrameHeader

/-! ## Frames -/

/-- Writes the blocks from a place on, and gives the place behind them. Every
block takes a byte at least, so the fuel is the number of bytes. An empty block is
no reason to look at the size that the frame should have, unless it is small. -/
def blocks? (data : ByteArray) (h : FrameHeader) :
    Nat → Nat → Written → Option (ByteArray × Nat)
  | 0, _, _ => none
  | fuel + 1, place, written => do
    let block ← BlockHeader.at? data place
    let start := place + BlockHeader.fixedSize
    let stop := start + block.packedSize
    if data.size < stop then none
    else
      let written ← written.add? h.maxBlock block (data.extract start stop)
      if !block.isLast then blocks? data h fuel stop written
      else if h.size.all (· == written.output.size) ∨ block.packedSize = 0 ∧ !h.isSmall then
        return (written.output, stop)
      else none

/-- What the frame says whose signature ends at a place, and the place behind
it. -/
def frame? (data : ByteArray) (place : Nat) : Option (ByteArray × Nat) := do
  let h ← FrameHeader.at? data place
  if FrameHeader.maxWindow < h.window ∧ !h.isSmall ∨ h.dictionary ≠ 0 then none
  else
    let (output, stop) ← blocks? data h data.size h.stop .start
    if !h.hasChecksum then return (output, stop)
    else if stop + 4 ≤ data.size ∧ longAt data stop = (checksum output).toNat then
      return (output, stop + 4)
    else none

/-! ## All -/

/-- Whether four bytes are what a frame starts with that is for others. -/
def isForeign (signature : Nat) : Bool :=
  signature / 16 == 0x184d2a5

/-- What the frames from a place on say. Every frame takes a byte at least, so the
fuel is the number of bytes. -/
def frames? (data : ByteArray) : Nat → Nat → ByteArray → Option ByteArray
  | 0, _, _ => none
  | fuel + 1, place, output =>
    if data.size < place + 4 then none
    else do
      let signature := longAt data place
      let (more, stop) ←
        if signature = FrameHeader.signature then frame? data (place + 4)
        else if isForeign signature ∧ place + 8 ≤ data.size then
          some (ByteArray.empty, place + 8 + longAt data (place + 4))
        else none
      let output := output ++ more
      if data.size < stop then none
      else if stop = data.size then return output
      else frames? data fuel stop output

/-- What some data says, which is one frame at least. -/
def unpack? (data : ByteArray) : Option ByteArray :=
  frames? data data.size 0 ByteArray.empty

end ClassLens.Archive.Zstandard
