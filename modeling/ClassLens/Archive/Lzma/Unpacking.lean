/-
Unpacking LZMA data: literals and copies under learnt chances.

What the chances depend on is a state, which is a number below twelve that tells
what came last: below seven it was a literal. The last four distances are kept,
and copies with one of them have short names.
-/
import ClassLens.Archive.BackCopy
import ClassLens.Archive.Lzma.Slots

set_option autoImplicit false

namespace ClassLens.Archive.Lzma

/-! ## States -/

namespace State

/-- Whether a literal came last. -/
def isLiteral (state : Nat) : Bool :=
  state < 7

/-- The state behind a literal. -/
def afterLiteral (state : Nat) : Nat :=
  if state < 4 then 0 else if state < 10 then state - 3 else state - 6

/-- The state behind a copy with a new distance. -/
def afterNew (state : Nat) : Nat :=
  if isLiteral state then 7 else 10

/-- The state behind a copy with a recent distance. -/
def afterRecent (state : Nat) : Nat :=
  if isLiteral state then 8 else 11

/-- The state behind a copy of one byte. -/
def afterByte (state : Nat) : Nat :=
  if isLiteral state then 9 else 11

end State

/-- The last distances, newest first. -/
structure Recent where
  first : Nat
  second : Nat
  third : Nat
  fourth : Nat
  deriving DecidableEq, Repr

/-- The distances that count as the last ones at the beginning. -/
def Recent.start : Recent :=
  ⟨1, 1, 1, 1⟩

/-- Where copies may begin: not in front of a place of the output, and not more
than some bytes back. -/
structure Reach where
  start : Nat
  window : Nat
  deriving DecidableEq, Repr

/-- How far unpacking has got. -/
structure Unpacking where
  coder : RangeState
  state : Nat
  recent : Recent
  output : ByteArray

/-! ## Literals -/

/-- The bits of a literal behind a copy, the highest first. The byte that would have
gone on with the copy tells the slots, until a bit is not the one it has. -/
def literalBits (slot : Nat) : Nat → Nat → Nat → RangeReader Nat
  | 0, node, _ => pure node
  | n + 1, node, guess => do
    let guessed := (guess >>> n) % 2
    let bit ← RangeReader.bit (slot + 256 * (1 + guessed) + node)
    let node := 2 * node + bit
    if bit = guessed then literalBits slot n node guess
    else RangeReader.branch slot n node

/-- A literal. The byte that would have gone on with a copy is given if a copy came
last. -/
def readLiteral (slot : Nat) (guess : Option UInt8) : RangeReader UInt8 := do
  let node ←
    match guess with
    | none => RangeReader.branch slot 8 1
    | some byte => literalBits slot 8 1 byte.toNat
  return UInt8.ofNat (node - 256)

/-! ## Copies -/

/-- The length of a copy: two to nine, ten to 17, or more. -/
def readLength (slot position : Nat) : RangeReader Nat := do
  if (← RangeReader.bit slot) = 0 then
    return 2 + (← RangeReader.tree (slot + 2 + 8 * position) 3)
  else if (← RangeReader.bit (slot + 1)) = 0 then
    return 10 + (← RangeReader.tree (slot + 130 + 8 * position) 3)
  else return 18 + (← RangeReader.tree (slot + 258) 8)

/-- The distance of a copy of some length: its size is the two highest bits and how
many bits there are below them. -/
def readDistance (length : Nat) : RangeReader Nat := do
  let size ← RangeReader.tree (Slot.distanceSizes length) 6
  if size < 4 then return size + 1
  else
    let lower := size / 2 - 1
    let high := (2 + size % 2) <<< lower
    if size < 14 then
      return high + (← RangeReader.reverseTree (Slot.distanceBits size) lower) + 1
    else
      let middle ← RangeReader.evenBits (lower - 4) 0
      return high + 16 * middle + (← RangeReader.reverseTree Slot.alignment 4) + 1

/-- A recent distance, as the newest of all. -/
def readRecent (state : Nat) (r : Recent) : RangeReader Recent := do
  if (← RangeReader.bit (Slot.isNotSecond state)) = 0 then
    return ⟨r.second, r.first, r.third, r.fourth⟩
  else if (← RangeReader.bit (Slot.isNotThird state)) = 0 then
    return ⟨r.third, r.first, r.second, r.fourth⟩
  else return ⟨r.fourth, r.first, r.second, r.third⟩

/-- The length of a copy, the distances with its own in front, and the state behind
it. -/
def readCopy (state position : Nat) (r : Recent) : RangeReader (Nat × Recent × Nat) := do
  if (← RangeReader.bit (Slot.isRecent state)) = 0 then
    let length ← readLength Slot.newLengths position
    let distance ← readDistance length
    return (length, ⟨distance, r.first, r.second, r.third⟩, State.afterNew state)
  else if (← RangeReader.bit (Slot.isNotFirst state)) = 0 then
    if (← RangeReader.bit (Slot.isLong state position)) = 0 then
      return (1, r, State.afterByte state)
    else
      let length ← readLength Slot.recentLengths position
      return (length, r, State.afterRecent state)
  else
    let r ← readRecent state r
    let length ← readLength Slot.recentLengths position
    return (length, r, State.afterRecent state)

/-! ## Steps -/

namespace Unpacking

/-- The beginning, behind some output. -/
def start (coder : RangeState) (output : ByteArray) : Unpacking :=
  ⟨coder, 0, .start, output⟩

/-- Writes a literal. -/
def addLiteral (u : Unpacking) (p : Properties) (data : ByteArray) (position : Nat) : Unpacking :=
  let before := if position = 0 then 0 else byteBack 1 u.output
  let guess := if State.isLiteral u.state then none else some (byteBack u.recent.first u.output)
  let (byte, coder) := readLiteral (Slot.literals p position before) guess data u.coder
  ⟨coder, State.afterLiteral u.state, u.recent, u.output.push byte⟩

/-- Writes a copy, if it begins where it may and ends no farther than a place. -/
def addCopy? (u : Unpacking) (reach : Reach) (data : ByteArray) (position index stop : Nat) :
    Option Unpacking :=
  let ((length, recent, state), coder) := readCopy u.state index u.recent data u.coder
  if recent.first ≤ min position reach.window ∧ u.output.size + length ≤ stop then
    some ⟨coder, state, recent, copyBack recent.first length u.output⟩
  else none

/-- Writes a literal or a copy. -/
def step? (u : Unpacking) (p : Properties) (reach : Reach) (data : ByteArray) (stop : Nat) :
    Option Unpacking :=
  let position := u.output.size - reach.start
  let index := position % (1 <<< p.positionBits)
  let (isCopy, coder) := RangeReader.bit (Slot.isCopy u.state index) data u.coder
  let u := { u with coder := coder }
  if isCopy = 0 then some (u.addLiteral p data position)
  else u.addCopy? reach data position index stop

/-- How many bytes of the number may be missing. It is as many as are looked at
together, so the last ones hardly matter. -/
def maxMissing : Nat := 4

/-- Writes up to a place of the output. Every step writes a byte at least, so the
fuel is how many are wanted. -/
def run? (p : Properties) (reach : Reach) (data : ByteArray) (stop : Nat) :
    Nat → Unpacking → Option Unpacking
  | 0, u => some u
  | fuel + 1, u =>
    if stop ≤ u.output.size then some u
    else if data.size + maxMissing < u.coder.place then none
    else
      match u.step? p reach data stop with
      | none => none
      | some u => run? p reach data stop fuel u

end Unpacking

/-! ## Whole data -/

/-- How far back copies may begin, by the number that the data has for it. There is
no window smaller than 4 KiB, and only multiples of sixteen. -/
def window (number : Nat) : Nat :=
  (max number 4096 + 15) / 16 * 16

/-- The greatest number of a window. -/
def maxWindow : Nat := 0xfffffff0

/-- What the data from a place on says, of which the size is known. The data may go
on behind that. -/
def unpackFrom? (p : Properties) (window : Nat) (data : ByteArray) (place size : Nat) :
    Option ByteArray := do
  let coder ← RangeState.at? data place (evenChances p)
  let u ← Unpacking.run? p ⟨0, window⟩ data size size (.start coder ByteArray.empty)
  if u.coder.place ≤ data.size + Unpacking.maxMissing then return u.output else none

end ClassLens.Archive.Lzma
