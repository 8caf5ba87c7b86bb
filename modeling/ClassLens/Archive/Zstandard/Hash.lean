/-
The checksum of Zstandard frames: the lower half of XXH64.

The data is taken in stripes of 32 bytes, each as four numbers of eight bytes that
go into four registers; what is left goes, eight, four and single bytes at a
time, into the register that the four make up in the end.
-/
import ClassLens.Archive.LittleEndian

set_option autoImplicit false

namespace ClassLens.Archive.Zstandard.Hash

/-! ## Constants -/

def prime1 : UInt64 := 0x9e3779b185ebca87
def prime2 : UInt64 := 0xc2b2ae3d27d4eb4f
def prime3 : UInt64 := 0x165667b19e3779f9
def prime4 : UInt64 := 0x85ebca77c2b2ae63
def prime5 : UInt64 := 0x27d4eb2f165667c5

/-! ## Steps -/

/-- Turns a register to the left, with `n` between one and 63. -/
def rotate (x n : UInt64) : UInt64 :=
  (x <<< n) ||| (x >>> (64 - n))

/-- Takes a number into a register. -/
def round (register number : UInt64) : UInt64 :=
  rotate (register + number * prime2) 31 * prime1

/-- The four registers. -/
structure Lanes where
  first : UInt64
  second : UInt64
  third : UInt64
  fourth : UInt64

namespace Lanes

/-- The registers before anything is taken. -/
def start : Lanes :=
  ⟨prime1 + prime2, prime2, 0, 0 - prime1⟩

/-- Takes several stripes. -/
def takeStripes (data : ByteArray) : Nat → Nat → Lanes → Lanes
  | 0, _, lanes => lanes
  | n + 1, place, ⟨a, b, c, d⟩ =>
    let number (k : Nat) : UInt64 := UInt64.ofNat (wideAt data (place + 8 * k))
    takeStripes data n (place + 32)
      ⟨round a (number 0), round b (number 1), round c (number 2), round d (number 3)⟩

/-- Takes a register into the one that all make up. -/
def merge (register lane : UInt64) : UInt64 :=
  (register ^^^ round 0 lane) * prime1 + prime4

/-- The register that all make up. -/
def total (l : Lanes) : UInt64 :=
  let sum := rotate l.first 1 + rotate l.second 7 + rotate l.third 12 + rotate l.fourth 18
  [l.first, l.second, l.third, l.fourth].foldl merge sum

end Lanes

/-- Takes what is left behind the stripes. Every step takes a byte at least, so
the fuel is the number of bytes. -/
def takeRest (data : ByteArray) : Nat → Nat → UInt64 → UInt64
  | 0, _, register => register
  | fuel + 1, place, register =>
    if place + 8 ≤ data.size then
      let number := UInt64.ofNat (wideAt data place)
      takeRest data fuel (place + 8)
        (rotate (register ^^^ round 0 number) 27 * prime1 + prime4)
    else if place + 4 ≤ data.size then
      let number := UInt64.ofNat (longAt data place)
      takeRest data fuel (place + 4)
        (rotate (register ^^^ (number * prime1)) 23 * prime2 + prime3)
    else if place < data.size then
      let number := UInt64.ofNat (littleEndian data place 1)
      takeRest data fuel (place + 1) (rotate (register ^^^ (number * prime5)) 11 * prime1)
    else register

/-- Mixes the bits of a register. -/
def avalanche (x : UInt64) : UInt64 :=
  let x := (x ^^^ (x >>> 33)) * prime2
  let x := (x ^^^ (x >>> 29)) * prime3
  x ^^^ (x >>> 32)

end Hash

/-- The checksum of some bytes. -/
def checksum (data : ByteArray) : UInt32 :=
  let stripes := data.size / 32
  let register :=
    if stripes = 0 then Hash.prime5 else (Hash.Lanes.start.takeStripes data stripes 0).total
  let register := register + UInt64.ofNat data.size
  (Hash.avalanche (Hash.takeRest data data.size (32 * stripes) register)).toUInt32

end ClassLens.Archive.Zstandard
