/-
Numbers of XZ streams, which take as many bytes as they need.

Seven bits of a number are in each byte, the lowest first, and the highest bit of a
byte tells that another one follows. No number ends with a byte that adds nothing.
-/

set_option autoImplicit false

namespace ClassLens.Archive.Xz

/-- The greatest number of bytes of a number. -/
def maxWidth : Nat := 9

/-- The rest of a number at a place, and the place behind it. -/
def restAt? (data : ByteArray) : Nat → Nat → Option (Nat × Nat)
  | 0, _ => none
  | width + 1, place => do
    let byte := (← data[place]?).toNat
    if byte < 128 then return (byte, place + 1)
    else
      let (high, stop) ← restAt? data width (place + 1)
      return (byte - 128 + 128 * high, stop)

/-- The number at a place, and the place behind it. -/
def numberAt? (data : ByteArray) (place : Nat) : Option (Nat × Nat) := do
  let (number, stop) ← restAt? data maxWidth place
  if place + 1 < stop ∧ data[stop - 1]? = some 0 then none else return (number, stop)

/-- How many zeros fill up some bytes to a multiple of four. -/
def padding (size : Nat) : Nat :=
  (4 - size % 4) % 4

/-- Whether all bytes between two places are there and are zero. -/
def areZeros (data : ByteArray) (start stop : Nat) : Bool :=
  stop ≤ data.size && (data.extract start stop).data.all (· == 0)

end ClassLens.Archive.Xz
