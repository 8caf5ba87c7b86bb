/-
The extra fields of a header.

A field has a number for its kind, a number for its length, and that many bytes.
What is left behind the last field may be a single byte, which is passed over,
but not the beginning of a field.
-/
import ClassLens.Archive.LittleEndian

set_option autoImplicit false

namespace ClassLens.Archive

/-- An extra field. -/
structure ExtraField where
  kind : Nat
  content : ByteArray

namespace ExtraField

/-! ## Kinds -/

/-- The kind of the numbers that a header has no room for. -/
def wideKind : Nat := 0x0001

/-- The kind of the times that one file system keeps. -/
def systemTimesKind : Nat := 0x000a

/-- The kind of the times that are counted in seconds. -/
def timesKind : Nat := 0x5455

/-- The kind of a comment that is UTF-8. -/
def commentKind : Nat := 0x6375

/-- The kind of a name that is UTF-8. -/
def nameKind : Nat := 0x7075

/-- The kind that says how an entry is encrypted. -/
def cipherKind : Nat := 0x9901

/-! ## Reading -/

/-- Reads the fields from a place on. Every field takes four bytes at least, so
the fuel is the number of bytes. -/
def readAll? (data : ByteArray) : Nat → Nat → Option (List ExtraField)
  | 0, _ => some []
  | fuel + 1, place =>
    if data.size < place + 2 then some []
    else if data.size < place + 4 then none
    else do
      let start := place + 4
      let stop := start + shortAt data (place + 2)
      if data.size < stop then none
      else
        let rest ← readAll? data fuel stop
        return ⟨shortAt data place, data.extract start stop⟩ :: rest

/-- The fields that some bytes hold. -/
def all? (data : ByteArray) : Option (List ExtraField) :=
  readAll? data (data.size + 1) 0

end ExtraField

end ClassLens.Archive
