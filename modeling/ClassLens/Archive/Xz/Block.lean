/-
Blocks of XZ streams.

A block has a header, packed bytes, zeros up to a multiple of four, and a digest of
what it says. The stream tells which digest that is.
-/
import ClassLens.Archive.Checksum
import ClassLens.Archive.LittleEndian
import ClassLens.Archive.Lzma.Chunks
import ClassLens.Archive.Xz.Digest
import ClassLens.Archive.Xz.Filter

set_option autoImplicit false

namespace ClassLens.Archive.Xz

/-! ## Digests -/

/-- Which digest the blocks of a stream have. -/
inductive DigestKind where
  | none
  | crc32
  | crc64
  | sha256
  deriving DecidableEq, Repr

namespace DigestKind

/-- The digest with a number. -/
def of? (number : Nat) : Option DigestKind :=
  match number with
  | 0 => some none
  | 1 => some crc32
  | 4 => some crc64
  | 10 => some sha256
  | _ => .none

/-- The number of bytes of the digest. -/
def size : DigestKind → Nat
  | none => 0
  | crc32 => 4
  | crc64 => 8
  | sha256 => 32

/-- Whether the digest of some bytes stands at a place. -/
def matchesAt (kind : DigestKind) (bytes data : ByteArray) (place : Nat) : Bool :=
  place + kind.size ≤ data.size &&
    match kind with
    | none => true
    | crc32 => longAt data place == (Archive.checksum bytes).toNat
    | crc64 => wideAt data place == (Xz.crc64 bytes).toNat
    | sha256 => data.extract place (place + kind.size) == Xz.sha256 bytes

end DigestKind

/-- Whether the bytes between two places have their checksum behind them. -/
def isChecked (data : ByteArray) (start stop : Nat) : Bool :=
  DigestKind.crc32.matchesAt (data.extract start stop) data stop

/-! ## Headers -/

/-- What a header says. -/
structure BlockHeader where
  /-- The number of packed bytes, and of what they say, if the header has them. -/
  packedSize : Option Nat
  size : Option Nat
  chain : FilterChain
  stop : Nat
  deriving DecidableEq, Repr

namespace BlockHeader

/-- A number that stands at a place, if it is there at all. -/
def optional? (data : ByteArray) (isThere : Bool) (place : Nat) : Option (Option Nat × Nat) :=
  if isThere then (numberAt? data place).map fun (n, stop) => (some n, stop)
  else some (none, place)

/-- The header at a place, whose first byte tells its size. What follows the filters
is zero, up to the checksum. -/
def at? (data : ByteArray) (place : Nat) : Option BlockHeader := do
  let stop := place + 4 * ((← data[place]?).toNat + 1)
  let flags := littleEndian data (place + 1) 1
  if flags / 4 % 16 ≠ 0 ∨ !isChecked data place (stop - 4) then none
  else
    let bytes := data.extract place (stop - 4)
    let (packedSize, next) ← optional? bytes (flags.testBit 6) 2
    let (size, next) ← optional? bytes (flags.testBit 7) next
    let (chain, next) ← FilterChain.at? bytes (flags % 4) next
    if areZeros bytes next bytes.size then return ⟨packedSize, size, chain, stop⟩ else none

end BlockHeader

/-! ## Blocks -/

/-- What the index of a stream tells of a block: its size without the zeros, and that
of what it says. -/
structure BlockRecord where
  wholeSize : Nat
  size : Nat
  deriving DecidableEq, Repr

/-- What the block at a place says, what the index should tell of it, and the place
behind it. -/
def blockAt? (kind : DigestKind) (data : ByteArray) (place : Nat) :
    Option (ByteArray × BlockRecord × Nat) := do
  let h ← BlockHeader.at? data place
  let (unpacked, stop) ← Lzma.unpackChunks? h.chain.window data h.stop
  let output := h.chain.undo unpacked
  let packedSize := stop - h.stop
  let digestPlace := stop + padding packedSize
  if h.packedSize.all (· == packedSize) ∧ h.size.all (· == output.size) ∧
      areZeros data stop digestPlace ∧ kind.matchesAt output data digestPlace then
    return (output, ⟨stop - place + kind.size, output.size⟩, digestPlace + kind.size)
  else none

end ClassLens.Archive.Xz
