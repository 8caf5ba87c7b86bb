/-
The text of a floating point literal.

The digits are the shortest that read back. Where the point goes is a decision
of the format and is kept in one record: numbers from 1e-4 up to but not
including 1e16 are written out with at least one digit after the point, others
with one digit before it and an exponent. Zero keeps its sign; a not-a-number
has neither sign nor payload.
-/
import ClassLens.Decimal.Shortest

set_option autoImplicit false

namespace ClassLens.Decimal

/-- The decisions that a printed form adds to the digits. -/
structure FloatStyle where
  /-- The least exponent of the leading digit that is written out. -/
  leastPositional : Int
  /-- The least exponent of the leading digit above those written out. -/
  leastScientific : Int
  deriving DecidableEq, Repr

/-- The form of literals: written out from 1e-4 to below 1e16. -/
def literalStyle : FloatStyle := ⟨-4, 16⟩

/-- Drops the zeros that end a list of digits. -/
def dropTrailingZeros (digits : List Char) : List Char :=
  (digits.reverse.dropWhile (· == '0')).reverse

/-- The digits written out, the first of them at `10 ^ exponent`. -/
def positional (digits : List Char) (exponent : Int) : List Char :=
  if exponent < 0 then
    ['0', '.'] ++ List.replicate (-1 - exponent).toNat '0' ++ digits
  else
    let whole := exponent.toNat + 1
    let fraction := digits.drop whole
    digits.take whole ++ List.replicate (whole - digits.length) '0' ++
      '.' :: (if fraction.isEmpty then ['0'] else fraction)

/-- The digits with an exponent, the first of them before the point. -/
def scientific (digits : List Char) (exponent : Int) : List Char :=
  digits.take 1 ++ (if digits.length ≤ 1 then [] else '.' :: digits.drop 1) ++
    'e' :: (toString exponent).toList

/-- The text of a positive decimal number. -/
def Numeral.chars (style : FloatStyle) (d : Numeral) : List Char :=
  let all := Nat.toDigits 10 d.digits
  let exponent := d.exponent + all.length - 1
  let digits := dropTrailingZeros all
  if style.leastPositional ≤ exponent ∧ exponent < style.leastScientific then
    positional digits exponent
  else scientific digits exponent

/-- The text of a floating point number, given by its bits. -/
def BinaryFormat.text (f : BinaryFormat) (bits : Nat) : String :=
  let signed (negative : Bool) (cs : List Char) : String :=
    String.ofList (if negative then '-' :: cs else cs)
  match f.value bits with
  | .nan => "NaN"
  | .infinite negative => signed negative ['i', 'n', 'f']
  | .zero negative => signed negative ['0', '.', '0']
  | .finite negative significand exponent =>
    signed negative ((f.shortest significand exponent).chars literalStyle)

/-- The text of a single precision number. -/
def floatText (bits : UInt32) : String :=
  single.text bits.toNat

/-- The text of a double precision number. -/
def doubleText (bits : UInt64) : String :=
  double.text bits.toNat

end ClassLens.Decimal
