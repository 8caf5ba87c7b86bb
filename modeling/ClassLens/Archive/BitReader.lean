/-
Reading bits: a position that moves over the bits of some bytes.

The bits of a byte come lowest first or highest first, and so do the bits of a
number that takes several of them. Reading stops where the data ends, and where
it says something that means nothing.
-/

set_option autoImplicit false

namespace ClassLens.Archive

/-! ## Bits -/

/-- The order of the bits of a byte, and of those of a number. -/
inductive BitOrder where
  | lowFirst
  | highFirst
  deriving DecidableEq, Repr

/-- Some bytes as a sequence of bits. -/
structure Bits where
  order : BitOrder
  bytes : ByteArray

namespace Bits

/-- The number of bits. -/
def length (b : Bits) : Nat :=
  8 * b.bytes.size

/-- The bit at a place. -/
def at? (b : Bits) (place : Nat) : Option Nat :=
  b.bytes[place / 8]?.map fun byte =>
    match b.order with
    | .lowFirst => (byte.toNat >>> (place % 8)) % 2
    | .highFirst => (byte.toNat >>> (7 - place % 8)) % 2

end Bits

/-! ## Reading -/

/-- Why reading stops. -/
inductive Stop where
  /-- The data ends. -/
  | ended
  /-- The data says something that means nothing. -/
  | meaningless
  deriving DecidableEq, Repr

/-- A step over some bits. -/
def BitReader (α : Type) : Type :=
  Bits → Nat → Except Stop (α × Nat)

namespace BitReader

/-- Reads nothing. -/
@[inline] def pure {α : Type} (a : α) : BitReader α :=
  fun _ place => .ok (a, place)

/-- Reads one thing and then another. -/
@[inline] def bind {α β : Type} (r : BitReader α) (next : α → BitReader β) : BitReader β :=
  fun data place =>
    match r data place with
    | .error stop => .error stop
    | .ok (a, place) => next a data place

instance : Monad BitReader where
  pure := pure
  bind := bind

/-- Gives up on data that means nothing. -/
def fail {α : Type} : BitReader α :=
  fun _ _ => .error .meaningless

/-- Goes on with what there is, or gives up. -/
def ofOption {α : Type} : Option α → BitReader α
  | some a => pure a
  | none => fail

/-- Reads something if the data does not end before. -/
def attempt {α : Type} (r : BitReader α) : BitReader (Option α) :=
  fun data place =>
    match r data place with
    | .ok (a, place) => .ok (some a, place)
    | .error .ended => .ok (none, place)
    | .error .meaningless => .error .meaningless

/-- How many bits there are, which is fuel for whatever reads one bit at least in
every step. -/
def length : BitReader Nat :=
  fun data place => .ok (data.length, place)

/-- One bit. -/
def bit : BitReader Nat :=
  fun data place =>
    match data.at? place with
    | none => .error .ended
    | some bit => .ok (bit, place + 1)

/-- A number of some bits, lowest first. -/
def lowFirstNumber : Nat → BitReader Nat
  | 0 => pure 0
  | n + 1 => do
    let low ← bit
    let high ← lowFirstNumber n
    return low + 2 * high

/-- A number of some bits, highest first, that goes on from the bits read so
far. -/
def highFirstNumber : Nat → Nat → BitReader Nat
  | 0, high => pure high
  | n + 1, high => do
    let low ← bit
    highFirstNumber n (2 * high + low)

/-- A number of some bits. -/
def bits (n : Nat) : BitReader Nat :=
  fun data place =>
    match data.order with
    | .lowFirst => lowFirstNumber n data place
    | .highFirst => highFirstNumber n 0 data place

/-- Several numbers of the same width. -/
def numbers (width : Nat) : Nat → BitReader (List Nat)
  | 0 => pure []
  | n + 1 => do
    let first ← bits width
    let rest ← numbers width n
    return first :: rest

/-- Leaves out what is left of a byte that was begun. -/
def align : BitReader Unit :=
  fun _ place => .ok ((), (place + 7) / 8 * 8)

end BitReader

end ClassLens.Archive
