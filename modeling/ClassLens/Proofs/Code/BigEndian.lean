/-
Big-endian words: writing a number, high byte first, and reading it back.

The decoder reads words off the front of a list of bytes and puts them together
by multiplication. Here they are taken apart by shifts, which is the other way
to say it, and the two are inverse to each other for every word. Signed numbers
are written as the words that stand for them.
-/
import ClassLens.Code.Decode

set_option autoImplicit false

namespace ClassLens.Code

/-- The two bytes of a word of 16 bits, high byte first. -/
def bigEndian16 (w : UInt16) : List UInt8 :=
  [(w >>> 8).toUInt8, w.toUInt8]

/-- The four bytes of a word of 32 bits, high byte first. -/
def bigEndian32 (w : UInt32) : List UInt8 :=
  [(w >>> 24).toUInt8, (w >>> 16).toUInt8, (w >>> 8).toUInt8, w.toUInt8]

@[simp] theorem length_bigEndian32 (w : UInt32) : (bigEndian32 w).length = 4 := rfl

theorem word16_bigEndian (w : UInt16) : word16 (w >>> 8).toUInt8 w.toUInt8 = w := by
  rw [← UInt16.toNat_inj, word16]
  have hlt := w.toNat_lt
  simp only [UInt16.toNat_ofNat', UInt16.toNat_toUInt8, UInt16.toNat_shiftRight,
    Nat.shiftRight_eq_div_pow, UInt16.reduceToNat, Nat.reduceMod, Nat.reducePow]
  omega

theorem word32_bigEndian (w : UInt32) :
    word32 (w >>> 24).toUInt8 (w >>> 16).toUInt8 (w >>> 8).toUInt8 w.toUInt8 = w := by
  rw [← UInt32.toNat_inj, word32]
  have hlt := w.toNat_lt
  simp only [UInt32.toNat_ofNat', UInt32.toNat_toUInt8, UInt32.toNat_shiftRight,
    Nat.shiftRight_eq_div_pow, UInt32.reduceToNat, Nat.reduceMod, Nat.reducePow]
  omega

/-! ## Reading back -/

section Reading

variable (place : Nat) (rest : List UInt8)

theorem word16At_bigEndian16 (w : UInt16) :
    word16At place (bigEndian16 w ++ rest) = .ok w := by
  simp only [bigEndian16, List.cons_append, word16At, word16_bigEndian]

theorem int16At_bigEndian16 (v : Int16) :
    int16At place (bigEndian16 v.toUInt16 ++ rest) = .ok v := by
  rw [int16At, word16At_bigEndian16]
  exact congrArg Except.ok (Int16.toInt16_toUInt16 v)

theorem int32At_bigEndian32 (v : Int32) :
    int32At place (bigEndian32 v.toUInt32 ++ rest) = .ok v := by
  simp only [int32At, bigEndian32, List.cons_append, word32At, word32_bigEndian]
  exact congrArg Except.ok (Int32.toInt32_toUInt32 v)

end Reading

end ClassLens.Code
