/-
The slots of the chances of packed data: the situations in which a bit is found.
-/
import ClassLens.Archive.Lzma.RangeReader

set_option autoImplicit false

namespace ClassLens.Archive.Lzma

/-- What is fixed for some packed data: how many bits of the byte before a literal
and of its position tell its slots, and how many bits of the position those of
other things. -/
structure Properties where
  byteBits : Nat
  literalPositionBits : Nat
  positionBits : Nat
  deriving DecidableEq, Repr

/-- The properties that a byte stands for. -/
def Properties.ofByte? (byte : UInt8) : Option Properties :=
  let n := byte.toNat
  if n < 225 then some ⟨n % 9, n / 9 % 5, n / 45⟩ else none

namespace Slot

/-! Most slots depend on a state, which is one of twelve and tells what came last,
and some on the last bits of the position, which are up to four. -/

/-- Whether a copy follows, not a literal. -/
def isCopy (state position : Nat) : Nat :=
  16 * state + position

/-- Whether the distance of a copy is one of the last ones. -/
def isRecent (state : Nat) : Nat :=
  192 + state

/-- Whether it is not the very last one. -/
def isNotFirst (state : Nat) : Nat :=
  204 + state

/-- Whether it is not the one before that either. -/
def isNotSecond (state : Nat) : Nat :=
  216 + state

/-- Whether it is not the third either. -/
def isNotThird (state : Nat) : Nat :=
  228 + state

/-- Whether a copy with the very last distance is longer than a byte. -/
def isLong (state position : Nat) : Nat :=
  240 + 16 * state + position

/-- The lengths of copies with new distances. -/
def newLengths : Nat := 432

/-- The lengths of copies with recent distances. -/
def recentLengths : Nat := 946

/-- The sizes of distances, by the length of the copy. -/
def distanceSizes (length : Nat) : Nat :=
  1460 + 64 * (min length 5 - 2)

/-- The lower bits of distances of a size from four to 13. -/
def distanceBits (size : Nat) : Nat :=
  1716 + 32 * (size - 4)

/-- The lowest bits of greater distances. -/
def alignment : Nat := 2036

/-- The literals, by the bits of the byte before and of the position. -/
def literals (p : Properties) (position : Nat) (before : UInt8) : Nat :=
  let context := ((position % (1 <<< p.literalPositionBits)) <<< p.byteBits) +
    (before.toNat >>> (8 - p.byteBits))
  2052 + 768 * context

/-- The number of slots. -/
def count (p : Properties) : Nat :=
  2052 + (768 <<< (p.byteBits + p.literalPositionBits))

end Slot

/-- The chances at the beginning. -/
def evenChances (p : Properties) : Array UInt16 :=
  Array.replicate (Slot.count p) RangeState.evenChance

end ClassLens.Archive.Lzma
