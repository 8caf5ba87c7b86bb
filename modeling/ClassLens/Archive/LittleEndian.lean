/-
Numbers in data, low byte first.
-/

set_option autoImplicit false

namespace ClassLens.Archive

/-- The number in some bytes from a place on. Bytes beyond the end are zero;
numbers are only made use of where they are whole. -/
def littleEndian (data : ByteArray) (place : Nat) : Nat → Nat
  | 0 => 0
  | n + 1 => data[place]?.elim 0 UInt8.toNat + 256 * littleEndian data (place + 1) n

/-- The number in two bytes at a place. -/
def shortAt (data : ByteArray) (place : Nat) : Nat :=
  littleEndian data place 2

/-- The number in four bytes at a place. -/
def longAt (data : ByteArray) (place : Nat) : Nat :=
  littleEndian data place 4

/-- The number in eight bytes at a place. -/
def wideAt (data : ByteArray) (place : Nat) : Nat :=
  littleEndian data place 8

/-- The greatest number of two bytes. -/
def maxShort : Nat := 0xffff

/-- The greatest number of four bytes. -/
def maxLong : Nat := 0xffffffff

end ClassLens.Archive
