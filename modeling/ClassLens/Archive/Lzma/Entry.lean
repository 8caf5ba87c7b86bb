/-
LZMA data as entries of archives have it: a version, the size of the properties,
the properties, the window and the packed bytes. The size of what they say stands
elsewhere.
-/
import ClassLens.Archive.LittleEndian
import ClassLens.Archive.Lzma.Unpacking

set_option autoImplicit false

namespace ClassLens.Archive.Lzma

/-- The size of the properties and the window. -/
def propertiesSize : Nat := 5

/-- What an entry says whose size is given. -/
def unpack? (data : ByteArray) (size : Nat) : Option ByteArray := do
  let p ← Properties.ofByte? (← data[4]?)
  let number := longAt data 5
  if shortAt data 2 = propertiesSize ∧ number ≤ maxWindow then
    unpackFrom? p (window number) data 9 size
  else none

end ClassLens.Archive.Lzma
