/-
Reading bits that were packed by their chances.

All bits together are one number, and they are found out one after the other: the
range in which the number must be is cut in two, in the proportion of the chances
of zero and one, and the part that has the number tells the bit. The range is made
wider by another byte of the number whenever it gets narrow.

Chances are learnt: each is kept for some situation, in a slot, and moves towards
every bit that is found in this situation.
-/

set_option autoImplicit false

namespace ClassLens.Archive.Lzma

/-! ## States -/

/-- The range, the number counted from its start, the place of the next byte and
the chances of zero, in parts of 2048. -/
structure RangeState where
  range : UInt32
  number : UInt32
  place : Nat
  chances : Array UInt16

namespace RangeState

/-- Even chances. -/
def evenChance : UInt16 := 1024

/-- The bytes that are read before the first bit. -/
def startSize : Nat := 5

/-- The number in the four bytes at a place, high byte first. -/
def numberAt (data : ByteArray) (place : Nat) : UInt32 :=
  (List.range 4).foldl
    (fun high k => (high <<< 8) ||| (data[place + k]?.getD 0).toUInt32) 0

/-- The state at a place, with known chances. What starts there is a byte that is
zero and the first bytes of the number. -/
def at? (data : ByteArray) (place : Nat) (chances : Array UInt16) : Option RangeState :=
  if place + startSize ≤ data.size ∧ data[place]? = some 0 then
    some ⟨0xffffffff, numberAt data (place + 1), place + startSize, chances⟩
  else none

/-- Takes another byte if the range is narrow. What is behind the last byte counts
as zero. -/
def widened (s : RangeState) (data : ByteArray) : RangeState :=
  if s.range < 0x1000000 then
    { s with
      range := s.range <<< 8
      number := (s.number <<< 8) ||| (data[s.place]?.getD 0).toUInt32
      place := s.place + 1 }
  else s

end RangeState

/-! ## Reading -/

/-- A step over packed bits. -/
abbrev RangeReader : Type → Type :=
  ReaderT ByteArray (StateM RangeState)

namespace RangeReader

/-- A bit whose chance is in a slot. -/
def bit (slot : Nat) : RangeReader Nat :=
  fun data s =>
    let s := s.widened data
    let chance := s.chances[slot]?.getD RangeState.evenChance
    let zeros := (s.range >>> 11) * chance.toUInt32
    if s.number < zeros then
      (0, { s with
        range := zeros
        chances := s.chances.setIfInBounds slot (chance + ((2048 - chance) >>> 5)) })
    else
      (1, { s with
        range := s.range - zeros
        number := s.number - zeros
        chances := s.chances.setIfInBounds slot (chance - (chance >>> 5)) })

/-- A bit with even chances that are not learnt. -/
def evenBit : RangeReader Nat :=
  fun data s =>
    let s := s.widened data
    let half := s.range >>> 1
    if s.number < half then (0, { s with range := half })
    else (1, { s with range := half, number := s.number - half })

/-- Some bits with even chances, the highest first, that go on from the bits read
so far. -/
def evenBits : Nat → Nat → RangeReader Nat
  | 0, high => pure high
  | n + 1, high => do evenBits n (2 * high + (← evenBit))

/-- Some bits, the highest first. The slot of a bit is told by the bits before it:
these, behind a one, are a number that is counted from the first slot. -/
def branch (slot : Nat) : Nat → Nat → RangeReader Nat
  | 0, node => pure node
  | n + 1, node => do branch slot n (2 * node + (← bit (slot + node)))

/-- A number of some bits, the highest first. -/
def tree (slot n : Nat) : RangeReader Nat := do
  return (← branch slot n 1) - (1 <<< n)

/-- Some bits, the lowest first. -/
def reverseBranch (slot : Nat) : Nat → Nat → RangeReader Nat
  | 0, _ => pure 0
  | n + 1, node => do
    let low ← bit (slot + node)
    return low + 2 * (← reverseBranch slot n (2 * node + low))

/-- A number of some bits, the lowest first. -/
def reverseTree (slot n : Nat) : RangeReader Nat :=
  reverseBranch slot n 1

end RangeReader

end ClassLens.Archive.Lzma
