/-
Reading choices that were packed by how often they are made.

All choices together are one number, and a range is known in which it must be. For
each choice the range is cut into equal parts, and each way to choose has some of
them; where the number is tells the choice. The first bytes of the range that are
the same at both of its ends are given up for further ones.
-/

set_option autoImplicit false

namespace ClassLens.Archive.Ppmd

/-- The range, the number counted from its start, and the place of the next byte. -/
structure Coder where
  low : UInt32
  range : UInt32
  number : UInt32
  place : Nat
  deriving DecidableEq, Repr

namespace Coder

/-- The number in the four bytes at a place, high byte first. -/
def numberAt (data : ByteArray) (place : Nat) : UInt32 :=
  (List.range 4).foldl
    (fun high k => (high <<< 8) ||| (data[place + k]?.getD 0).toUInt32) 0

/-- The whole range, with the number that starts at a place. The greatest number is
in no range. -/
def at? (data : ByteArray) (place : Nat) : Option Coder :=
  let number := numberAt data place
  if place + 4 ≤ data.size ∧ number ≠ 0xffffffff then
    some ⟨0, 0xffffffff, number, place + 4⟩
  else none

/-- Cuts the range into some parts, and gives the part that has the number. -/
def cut (c : Coder) (parts : UInt32) : UInt32 × Coder :=
  let c := { c with range := c.range / parts }
  (c.number / c.range, c)

/-- Takes further bytes as long as the ends of the range have the same first byte. A
narrow range is made to end where they differ. Every byte is taken once, so the fuel
is the number of bytes. -/
def refill? (data : ByteArray) : Nat → Coder → Option Coder
  | 0, _ => none
  | fuel + 1, c =>
    let hasSameByte := (c.low ^^^ (c.low + c.range)) < 0x1000000
    if !hasSameByte && 0x8000 ≤ c.range then some c
    else
      let range := if hasSameByte then c.range else (0 - c.low) &&& 0x7fff
      match data[c.place]? with
      | none => none
      | some byte =>
        refill? data fuel
          ⟨c.low <<< 8, range <<< 8, (c.number <<< 8) ||| byte.toUInt32, c.place + 1⟩

/-- Goes on with some parts of the range, from a first one on. -/
def take? (c : Coder) (data : ByteArray) (first count : UInt32) : Option Coder :=
  let skipped := first * c.range
  refill? data (data.size + 1)
    ⟨c.low + skipped, c.range * count, c.number - skipped, c.place⟩

end Coder

end ClassLens.Archive.Ppmd
