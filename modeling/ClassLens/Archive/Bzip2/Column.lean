/-
The last column of a sorted block.

Take all rotations of a block, sort them, and write one under the other. The last
column of this table has the bytes of the block, and the block can be had back
from it: the first column is the same bytes sorted, equal bytes come in the same
order in both columns, and each byte of the last column stands in front of the
first byte of its row.

Equal bytes tend to stand together in the column, so it is written as places in
a list of bytes of which the last one used comes to the front, and the many
places at the front as the length of their run.
-/

set_option autoImplicit false

namespace ClassLens.Archive.Bzip2

/-! ## The block of a column -/

/-- The places of the bytes of a column, in the order of the bytes; the places of
equal bytes stay in order. -/
def sortedPlaces (column : ByteArray) : Array Nat :=
  let put (buckets : Array (Array Nat)) (place : Nat) : Array (Array Nat) :=
    buckets.modify (column[place]?.getD 0).toNat (·.push place)
  (Nat.fold column.size (fun place _ buckets => put buckets place)
    (Array.replicate 256 #[])).foldl (· ++ ·) #[]

/-- Walks from row to row and gives the bytes on the way. -/
def walk (column : ByteArray) (sorted : Array Nat) : Nat → Nat → ByteArray → ByteArray
  | 0, _, block => block
  | n + 1, row, block =>
    let row := sorted[row]?.getD 0
    walk column sorted n row (block.push (column[row]?.getD 0))

/-- The block whose column is given, and the row in which it is not rotated. -/
def unsorted (column : ByteArray) (row : Nat) : ByteArray :=
  walk column (sortedPlaces column) column.size row ByteArray.empty

/-! ## Writing a column -/

/-- A column up to some place of it. -/
structure Column where
  bytes : ByteArray
  /-- The bytes that there are, the last one used first. -/
  recent : List UInt8
  /-- How many times the front of the list is still to be written. -/
  run : Nat
  /-- What the next digit of that number counts. -/
  weight : Nat

namespace Column

/-- The beginning of a column of some bytes. -/
def start (alphabet : List UInt8) : Column :=
  ⟨ByteArray.empty, alphabet, 0, 1⟩

/-- Makes the run longer by a digit, which is one or two. -/
def lengthen (c : Column) (digit : Nat) : Column :=
  { c with run := c.run + digit * c.weight, weight := 2 * c.weight }

/-- Writes the run, if the column does not get longer than it may be. -/
def flush? (c : Column) (limit : Nat) : Option Column :=
  if limit < c.bytes.size + c.run then none
  else
    let front := c.recent.head?.getD 0
    some ⟨Nat.repeat (·.push front) c.run c.bytes, c.recent, 0, 1⟩

/-- Writes the byte at a place of the list, and brings it to the front. -/
def use? (c : Column) (limit place : Nat) : Option Column := do
  let c ← c.flush? limit
  let byte ← c.recent[place]?
  if c.bytes.size < limit then
    return { c with bytes := c.bytes.push byte, recent := byte :: c.recent.eraseIdx place }
  else none

end Column

end ClassLens.Archive.Bzip2
