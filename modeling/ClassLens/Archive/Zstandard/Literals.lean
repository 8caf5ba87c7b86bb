/-
The literals of a block.

A block starts with all bytes that its copies leave to be written. They stand
there as they are, or are one byte over and over, or are packed under a code that
is written in front of them or is the one that was used before. Packed literals
may be cut into four parts.
-/
import ClassLens.Archive.LittleEndian
import ClassLens.Archive.Zstandard.WeightCode

set_option autoImplicit false

namespace ClassLens.Archive.Zstandard

/-- The literals of a block, the code that was used last, and how many bytes of
the block they take. -/
structure Literals where
  bytes : ByteArray
  code : Option WeightCode
  stop : Nat

namespace Literals

/-! ## Plain literals -/

/-- The number of plain literals and the place behind it. -/
def plainSize (block : ByteArray) (form : Nat) : Nat × Nat :=
  match form with
  | 1 => (littleEndian block 0 2 / 16, 2)
  | 3 => (littleEndian block 0 3 / 16, 3)
  | _ => (littleEndian block 0 1 / 8, 1)

/-- Literals that stand as they are. -/
def plain? (code : Option WeightCode) (form : Nat) (block : ByteArray) : Option Literals :=
  let (size, start) := plainSize block form
  if start + size ≤ block.size then
    some ⟨block.extract start (start + size), code, start + size⟩
  else none

/-- Literals that are all one byte. -/
def repeated? (limit : Nat) (code : Option WeightCode) (form : Nat) (block : ByteArray) :
    Option Literals := do
  let (size, start) := plainSize block form
  let byte ← block[start]?
  if limit < size then none
  else return ⟨Nat.repeat (·.push byte) size ByteArray.empty, code, start + 1⟩

/-! ## Packed literals -/

/-- How packed literals are written. -/
structure PackedForm where
  isCut : Bool
  /-- The number of bits of each of the two sizes. -/
  width : Nat
  /-- The number of bytes that tell all this. -/
  start : Nat

/-- How packed literals are written, by the number of their form. -/
def packedForm (form : Nat) : PackedForm :=
  match form with
  | 0 => ⟨false, 10, 3⟩
  | 1 => ⟨true, 10, 3⟩
  | 2 => ⟨true, 14, 4⟩
  | _ => ⟨true, 18, 5⟩

/-- Literals that are cut into four parts of equal length, but for the last one.
The sizes of the first three stand in front. -/
def parts? (code : WeightCode) (count : Nat) (bytes : ByteArray) : Option ByteArray := do
  let part := (count + 3) / 4
  let first := 6 + shortAt bytes 0
  let second := first + shortAt bytes 2
  let third := second + shortAt bytes 4
  if count < 6 ∨ bytes.size ≤ third then none
  else
    return (← code.symbols? part (bytes.extract 6 first)) ++
      (← code.symbols? part (bytes.extract first second)) ++
      (← code.symbols? part (bytes.extract second third)) ++
      (← code.symbols? (count - 3 * part) (bytes.extract third bytes.size))

/-- Literals that are packed under a code. -/
def packed? (limit : Nat) (old : Option WeightCode) (hasCode : Bool) (form : Nat)
    (block : ByteArray) : Option Literals := do
  let form := packedForm form
  let sizes := littleEndian block 0 form.start / 16
  let count := sizes % (1 <<< form.width)
  let stop := form.start + (sizes >>> form.width)
  if limit < count ∨ block.size < stop then none
  else
    let bytes := block.extract form.start stop
    let (code, start) ← if hasCode then WeightCode.ofBytes? bytes else old.map fun code => (code, 0)
    let rest := bytes.extract start bytes.size
    let literals ← if form.isCut then parts? code count rest else code.symbols? count rest
    return ⟨literals, some code, stop⟩

/-! ## All -/

/-- The literals that a block starts with. They are no more than the limit. -/
def ofBlock? (limit : Nat) (code : Option WeightCode) (block : ByteArray) : Option Literals := do
  let first := (← block[0]?).toNat
  let form := first / 4 % 4
  let literals ←
    match first % 4 with
    | 0 => plain? code form block
    | 1 => repeated? limit code form block
    | 2 => packed? limit code true form block
    | _ => packed? limit code false form block
  if limit < literals.bytes.size then none else return literals

end Literals

end ClassLens.Archive.Zstandard
