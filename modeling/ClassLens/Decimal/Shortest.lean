/-
The shortest decimal that reads back as a given binary floating point number.

A finite number is `m · 2^q`. The reals that round to it form an interval
around it: half a unit up, and half a unit down, or a quarter where `m` is the
least significand, since the numbers below are twice as dense there. The ends
belong to the interval when `m` is even, because a tie rounds to even.

Everything is scaled to natural numbers: in quarters of a unit the number is
`4m`, and a power of ten or two too small to be an integer goes to the other
side of each comparison. For one digit, two digits and so on the two points of
that decimal grid on either side of the number are tried; the first grid with
a point in the interval wins, and of two points the nearer.
-/

set_option autoImplicit false

namespace ClassLens.Decimal

/-! ## Binary numbers -/

/-- A binary interchange format: the widths of its fields. -/
structure BinaryFormat where
  fractionBits : Nat
  exponentBits : Nat
  /-- More digits than this are never needed. -/
  maxDigits : Nat
  deriving DecidableEq, Repr

/-- The 32-bit format. -/
def single : BinaryFormat := ⟨23, 8, 9⟩

/-- The 64-bit format. -/
def double : BinaryFormat := ⟨52, 11, 17⟩

/-- What a bit pattern stands for. -/
inductive BinaryValue where
  | nan
  | infinite (negative : Bool)
  | zero (negative : Bool)
  /-- `significand · 2 ^ exponent`, with a positive significand. -/
  | finite (negative : Bool) (significand : Nat) (exponent : Int)
  deriving DecidableEq, Repr

/-- Takes a bit pattern apart. A pattern with the exponent field zero has no
hidden bit and the exponent of the field one. -/
def BinaryFormat.value (f : BinaryFormat) (bits : Nat) : BinaryValue :=
  let fraction := bits % (1 <<< f.fractionBits)
  let field := (bits >>> f.fractionBits) % (1 <<< f.exponentBits)
  let negative := (bits >>> (f.fractionBits + f.exponentBits)) % 2 == 1
  let least : Int := 2 - (1 <<< (f.exponentBits - 1) : Nat) - f.fractionBits
  if field = (1 <<< f.exponentBits) - 1 then
    if fraction = 0 then .infinite negative else .nan
  else if field = 0 then
    if fraction = 0 then .zero negative else .finite negative fraction least
  else .finite negative ((1 <<< f.fractionBits) + fraction) (least + field - 1)

/-! ## The interval -/

/-- The reals that read back as one number, as multiples of `unit` over
`scale`, both positive: the number itself, the ends, and whether they count. -/
structure Interval where
  low : Nat
  value : Nat
  high : Nat
  /-- The ends are inside. -/
  closed : Bool
  unit : Nat
  scale : Nat
  deriving DecidableEq, Repr

/-- The interval of `significand · 2 ^ exponent`, counted in quarters. -/
def BinaryFormat.interval (f : BinaryFormat) (significand : Nat) (exponent : Int) : Interval where
  low := 4 * significand - (if significand = 1 <<< f.fractionBits then 1 else 2)
  value := 4 * significand
  high := 4 * significand + 2
  closed := significand % 2 == 0
  unit := 1 <<< (exponent - 2).toNat
  scale := 1 <<< (2 - exponent).toNat

/-! ## Decimal grids -/

/-- A decimal number: `digits · 10 ^ exponent`. -/
structure Numeral where
  digits : Nat
  exponent : Int
  deriving DecidableEq, Repr

namespace Interval

/-- Compares `n · 10 ^ exponent` with a multiple of the interval's unit. -/
def compareGrid (i : Interval) (n : Nat) (exponent : Int) (multiple : Nat) : Ordering :=
  compare (n * Nat.pow 10 exponent.toNat * i.scale)
    (multiple * i.unit * Nat.pow 10 (-exponent).toNat)

/-- Whether `n · 10 ^ exponent` reads back as the number. -/
def contains (i : Interval) (n : Nat) (exponent : Int) : Bool :=
  let below := i.compareGrid n exponent i.low
  let above := i.compareGrid n exponent i.high
  if i.closed then below != .lt && above != .gt else below == .gt && above == .lt

/-- The greatest `n` with `n · 10 ^ exponent` at most the number. -/
def floorGrid (i : Interval) (exponent : Int) : Nat :=
  i.value * i.unit * Nat.pow 10 (-exponent).toNat / (Nat.pow 10 exponent.toNat * i.scale)

/-- The point of the grid `10 ^ exponent` that reads back as the number, the
nearer one if both neighbours do, and the upper one if they are equally near. -/
def gridPoint? (i : Interval) (exponent : Int) : Option Numeral :=
  let n := i.floorGrid exponent
  match i.contains n exponent, i.contains (n + 1) exponent with
  | false, false => none
  | true, false => some ⟨n, exponent⟩
  | false, true => some ⟨n + 1, exponent⟩
  | true, true =>
    -- halfway between the neighbours, in a unit of half the grid's
    if i.compareGrid (2 * n + 1) exponent (2 * i.value) == .gt then some ⟨n, exponent⟩
    else some ⟨n + 1, exponent⟩

/-- The exponent of the number's leading decimal digit. The lengths of the two
sides of the fraction leave two candidates. -/
def leadingExponent (i : Interval) : Int :=
  let length (n : Nat) : Int := (Nat.toDigits 10 n).length
  let guess := length (i.value * i.unit) - length i.scale
  if i.floorGrid guess = 0 then guess - 1 else guess

/-- Tries grids from `exponent` down, at most `fuel` of them. -/
def search (i : Interval) : Nat → Int → Option Numeral
  | 0, _ => none
  | fuel + 1, exponent =>
    match i.gridPoint? exponent with
    | some d => some d
    | none => search i fuel (exponent - 1)

end Interval

/-- The shortest decimal that reads back as `significand · 2 ^ exponent`. The
grid with the greatest number of digits a format needs always has a point; its
floor stands in for the case that cannot arise. -/
def BinaryFormat.shortest (f : BinaryFormat) (significand : Nat) (exponent : Int) : Numeral :=
  let i := f.interval significand exponent
  let first := i.leadingExponent
  (i.search f.maxDigits first).getD
    ⟨i.floorGrid (first + 1 - f.maxDigits), first + 1 - f.maxDigits⟩

end ClassLens.Decimal
