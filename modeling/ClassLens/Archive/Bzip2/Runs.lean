/-
Runs of equal bytes.

Before a block is sorted, a run of four to 259 equal bytes is written as four of
them and a byte that says how many more there are. The byte stands there even if
there are none.
-/

set_option autoImplicit false

namespace ClassLens.Archive.Bzip2

/-- A block up to some place of it. -/
structure Runs where
  output : ByteArray
  last : UInt8
  /-- How many of the last bytes are one run, up to four. -/
  run : Nat

namespace Runs

/-- Takes the next byte. -/
def add (r : Runs) (byte : UInt8) : Runs :=
  if r.run = 4 then ⟨Nat.repeat (·.push r.last) byte.toNat r.output, r.last, 0⟩
  else if r.run ≠ 0 ∧ byte = r.last then ⟨r.output.push byte, byte, r.run + 1⟩
  else ⟨r.output.push byte, byte, 1⟩

end Runs

/-- Writes all runs in full. The last run must say how long it is. -/
def expandRuns? (block : ByteArray) : Option ByteArray :=
  let all := block.foldl Runs.add ⟨ByteArray.empty, 0, 0⟩
  if all.run = 4 then none else some all.output

end ClassLens.Archive.Bzip2
