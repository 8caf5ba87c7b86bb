/-
Filters of XZ blocks.

Before a block is packed, its bytes can be made easier to pack by filters. The
packing itself counts as the last filter of the chain.
-/
import ClassLens.Archive.BackCopy
import ClassLens.Archive.LittleEndian
import ClassLens.Archive.Lzma.Unpacking
import ClassLens.Archive.Xz.Branch
import ClassLens.Archive.Xz.Number

set_option autoImplicit false

namespace ClassLens.Archive.Xz

/-! ## Filters -/

/-- What can be done before packing. -/
inductive Filter where
  /-- Each byte is written as the difference from the one at a distance before. -/
  | difference (distance : Nat)
  /-- Each jump in machine code is written with the place that it goes to. -/
  | jumps (machine : Machine) (start : Nat)
  deriving DecidableEq, Repr

/-- Undoes a filter. -/
def Filter.undo (bytes : ByteArray) : Filter → ByteArray
  | .difference distance =>
    bytes.foldl (fun output byte => output.push (byte + byteBack distance output)) ByteArray.empty
  | .jumps machine start => machine.undo start bytes

/-! ## Chains -/

/-- The filters of a block in the order in which they were used, and the window of
the packing. -/
structure FilterChain where
  filters : List Filter
  window : Nat
  deriving DecidableEq, Repr

namespace FilterChain

/-- Undoes all filters. -/
def undo (c : FilterChain) (bytes : ByteArray) : ByteArray :=
  c.filters.foldr (fun filter bytes => filter.undo bytes) bytes

/-- The number of the packing. -/
def packingNumber : Nat := 0x21

/-- The window that a byte stands for: powers of two, and halfway between them. -/
def windowOf? (byte : Nat) : Option Nat :=
  if byte < 40 then some ((2 + byte % 2) <<< (byte / 2 + 11))
  else if byte = 40 then some 0xffffffff
  else none

/-- The machine whose filter has a number. -/
def machine? (number : Nat) : Option Machine :=
  match number with
  | 4 => some .x86
  | 5 => some .powerPc
  | 6 => some .itanium
  | 7 => some .arm
  | 8 => some .thumb
  | 9 => some .sparc
  | 10 => some .arm64
  | _ => none

/-- The filter with a number and the bytes that say more of it: a distance less one, or
the place of the first byte if it is not zero. -/
def filter? (number : Nat) (more : ByteArray) : Option Filter :=
  if number = 3 then
    if more.size = 1 then some (.difference (littleEndian more 0 1 + 1)) else none
  else do
    let machine ← machine? number
    let start := littleEndian more 0 more.size
    if (more.size = 0 ∨ more.size = 4) ∧ start % machine.alignment = 0 then
      return .jumps machine start
    else none

/-- A filter as it is written: its number, the bytes that say more, and the place
behind it. -/
def writtenAt? (data : ByteArray) (place : Nat) : Option (Nat × ByteArray × Nat) := do
  let (number, place) ← numberAt? data place
  let (size, place) ← numberAt? data place
  if data.size < place + size then none
  else return (number, data.extract place (place + size), place + size)

/-- The chain of one more filters than a number at a place, and the place behind
it. -/
def at? (data : ByteArray) : Nat → Nat → Option (FilterChain × Nat)
  | 0, place => do
    let (number, more, place) ← writtenAt? data place
    if number = packingNumber ∧ more.size = 1 then
      return (⟨[], Lzma.window (← windowOf? (littleEndian more 0 1))⟩, place)
    else none
  | n + 1, place => do
    let (number, more, place) ← writtenAt? data place
    let first ← filter? number more
    let (rest, place) ← at? data n place
    return (⟨first :: rest.filters, rest.window⟩, place)

end FilterChain

end ClassLens.Archive.Xz
