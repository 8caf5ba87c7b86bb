/-
Unpacking XZ streams.

A stream has a header, blocks, an index that lists the sizes of the blocks, and a
footer. What follows the stream is not looked at.
-/
import ClassLens.Archive.Xz.Block

set_option autoImplicit false

namespace ClassLens.Archive.Xz

/-! ## Headers and footers -/

/-- The bytes that a stream starts with. -/
def signature : List UInt8 :=
  [0xfd, 0x37, 0x7a, 0x58, 0x5a, 0]

/-- The bytes that a stream ends with. -/
def footerSignature : List UInt8 :=
  [0x59, 0x5a]

/-- The size of a header and of a footer. -/
def headerSize : Nat := 12

/-- The bytes between two places. -/
def bytesAt (data : ByteArray) (start stop : Nat) : List UInt8 :=
  (data.extract start stop).data.toList

/-- The digest that the header of a stream names. -/
def digestKind? (data : ByteArray) : Option DigestKind :=
  let flags := shortAt data 6
  if bytesAt data 0 6 = signature ∧ flags % 256 = 0 ∧ isChecked data 6 8 then
    DigestKind.of? (flags / 256)
  else none

/-- Whether the footer at a place fits the header and the size of the index. -/
def isFooter (data : ByteArray) (place indexSize : Nat) : Bool :=
  place + headerSize ≤ data.size &&
    longAt data place == (Archive.checksum (data.extract (place + 4) (place + 10))).toNat &&
    4 * (longAt data (place + 4) + 1) == indexSize &&
    shortAt data (place + 8) == shortAt data 6 &&
    bytesAt data (place + 10) (place + headerSize) == footerSignature

/-! ## Indexes -/

/-- Several records at a place, and the place behind them. -/
def recordsAt? (data : ByteArray) : Nat → Nat → Option (List BlockRecord × Nat)
  | 0, place => some ([], place)
  | n + 1, place => do
    let (wholeSize, place) ← numberAt? data place
    let (size, place) ← numberAt? data place
    let (rest, place) ← recordsAt? data n place
    return (⟨wholeSize, size⟩ :: rest, place)

/-- Whether the index of some blocks stands at a place, with a footer behind it. -/
def isIndex (records : List BlockRecord) (data : ByteArray) (place : Nat) : Bool :=
  match numberAt? data (place + 1) with
  | none => false
  | some (count, next) =>
    count == records.length &&
      match recordsAt? data records.length next with
      | none => false
      | some (written, next) =>
        let stop := next + padding (next - place)
        written == records && areZeros data next stop && isChecked data place stop &&
          isFooter data (stop + 4) (stop + 4 - place)

/-! ## Streams -/

/-- What the blocks from a place on say, behind other blocks. Every block takes a byte
at least, so the fuel is the number of bytes. -/
def unpackFrom? (kind : DigestKind) (data : ByteArray) :
    Nat → Nat → List BlockRecord → ByteArray → Option ByteArray
  | 0, _, _, _ => none
  | fuel + 1, place, records, output => do
    -- no header of a block starts with zero, which is what the index starts with
    if (← data[place]?) = 0 then
      if isIndex records data place then return output else none
    else
      let (more, record, place) ← blockAt? kind data place
      unpackFrom? kind data fuel place (records ++ [record]) (output ++ more)

/-- What a stream says. -/
def unpack? (data : ByteArray) : Option ByteArray := do
  let kind ← digestKind? data
  unpackFrom? kind data data.size headerSize [] ByteArray.empty

end ClassLens.Archive.Xz
