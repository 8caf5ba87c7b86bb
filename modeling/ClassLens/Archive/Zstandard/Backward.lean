/-
Bits that are read from their end.

What is written last is read first: the bytes from the last one on, and in each
byte the highest bit first. The highest bit that is set in the last byte marks
where the bits begin, so the last byte is never zero.
-/
import ClassLens.Archive.BitReader

set_option autoImplicit false

namespace ClassLens.Archive.Zstandard

/-- The bits of some bytes from the last one on, and the place behind the mark. -/
def backward? (bytes : ByteArray) : Option (Bits × Nat) :=
  let bits : Bits := ⟨.highFirst, ⟨bytes.data.reverse⟩⟩
  ((List.range 8).find? fun place => bits.at? place == some 1).map fun mark => (bits, mark + 1)

/-- Reads what some bytes say from their end. -/
def readSome? {α : Type} (r : BitReader α) (bytes : ByteArray) : Option α := do
  let (bits, place) ← backward? bytes
  match r bits place with
  | .ok (a, _) => some a
  | .error _ => none

/-- Reads what some bytes say from their end, with no bit left. -/
def readWhole? {α : Type} (r : BitReader α) (bytes : ByteArray) : Option α := do
  let (bits, place) ← backward? bytes
  match r bits place with
  | .ok (a, stop) => if stop = bits.length then some a else none
  | .error _ => none

end ClassLens.Archive.Zstandard
