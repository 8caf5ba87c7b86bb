/-
Copies of what was written before.

The output of unpacking grows at its end, and what is repeated is given by how
far back it starts and how long it is. The copy may be longer than the way back:
then it goes on with what it has just written.
-/

set_option autoImplicit false

namespace ClassLens.Archive

/-- The byte at a distance before the end of the output. What would stand in
front of the first byte is zero. -/
def byteBack (distance : Nat) (output : ByteArray) : UInt8 :=
  if distance ≤ output.size then output[output.size - distance]?.getD 0 else 0

/-- Appends bytes from a distance before the end, one by one. -/
def copyBack (distance : Nat) : Nat → ByteArray → ByteArray
  | 0, output => output
  | n + 1, output => copyBack distance n (output.push (byteBack distance output))

end ClassLens.Archive
