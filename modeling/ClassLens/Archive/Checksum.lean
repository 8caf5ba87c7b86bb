/-
The checksum of archive entries: CRC-32.

The bits of the data, lowest first, are divided by a polynomial of degree 32,
and the remainder is the checksum. The register starts with all bits set and is
turned over at the end, so that leading zeros count.
-/

set_option autoImplicit false

namespace ClassLens.Archive

/-- Shifts the register by one bit. A bit that falls out subtracts the
polynomial. -/
def shiftBit (register : UInt32) : UInt32 :=
  if register &&& 1 = 1 then (register >>> 1) ^^^ 0xedb88320 else register >>> 1

/-- Shifts the register by several bits. -/
def shiftBits : Nat → UInt32 → UInt32
  | 0, register => register
  | n + 1, register => shiftBits n (shiftBit register)

/-- Takes a byte into the register. -/
def addByte (register : UInt32) (byte : UInt8) : UInt32 :=
  shiftBits 8 (register ^^^ byte.toUInt32)

/-- The checksum of some bytes. -/
def checksum (data : ByteArray) : UInt32 :=
  ~~~(data.foldl addByte 0xffffffff)

end ClassLens.Archive
