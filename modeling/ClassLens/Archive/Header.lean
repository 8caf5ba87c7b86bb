/-
The headers of a directory: what is known of an entry before it is opened.

A header has numbers at fixed places, then a name, extra fields and a comment.
The fields are taken in their order, and each can change what the header says:
numbers that are too great for their places stand in a field, and so does a name
that the page of names cannot write. A field that does not fit what it changes
makes the header unreadable, since one of the two must be wrong.
-/
import ClassLens.Archive.Checksum
import ClassLens.Archive.ExtraField
import ClassLens.Text.CodePage
import ClassLens.Text.Utf8

set_option autoImplicit false

namespace ClassLens.Archive

/-- What the directory says of an entry. -/
structure Header where
  /-- The name as it is written. -/
  nameBytes : ByteArray
  name : String
  comment : String
  isEncrypted : Bool
  /-- Whether a field says how the entry is encrypted. -/
  hasCipher : Bool
  method : Nat
  checksum : UInt32
  packedSize : Nat
  size : Nat
  /-- Where the entry starts. -/
  place : Nat

namespace Header

/-! ## Numbers without room -/

/-- A number of eight bytes at a place of a field if it is wanted, or else the
own number, and the place after what was read. -/
def widened (content : ByteArray) (wanted : Bool) (own place : Nat) : Nat × Nat :=
  if wanted then (wideAt content place, place + 8) else (own, place)

/-- Takes the numbers that the header has no room for. They are those that have
all bits set in the header, or all three of them if the field is long enough. -/
def withWideNumbers? (h : Header) (content : ByteArray) : Option Header :=
  let hasAll := 24 ≤ content.size
  let (size, next) := widened content (hasAll || h.size == maxLong) h.size 0
  let (packedSize, next) := widened content (hasAll || h.packedSize == maxLong) h.packedSize next
  let (place, next) := widened content (hasAll || h.place == maxLong) h.place next
  if next ≤ content.size then some { h with size, packedSize, place } else none

/-! ## Texts -/

/-- The text of a field that takes the place of an older one: a byte for its
version, the checksum of the older text, and UTF-8. -/
def newerText? (older content : ByteArray) : Option String :=
  if content.size < 5 || longAt content 1 ≠ (Archive.checksum older).toNat then none
  else String.fromUTF8? (content.extract 5 content.size)

/-- Takes a newer name. -/
def withName? (h : Header) (content : ByteArray) : Option Header :=
  (newerText? h.nameBytes content).map fun name =>
    { h with name := name, nameBytes := name.toUTF8 }

/-- Takes a newer comment. -/
def withComment? (h : Header) (content : ByteArray) : Option Header :=
  (newerText? h.comment.toUTF8 content).map fun comment => { h with comment := comment }

/-! ## Encryption -/

/-- The maker that a field about encryption names. -/
def cipherMaker : Nat := 0x4541

/-- Takes how the entry is encrypted. The field has the method that the content
was packed with before that. -/
def withCipher? (h : Header) (content : ByteArray) : Option Header :=
  let version := shortAt content 0
  let strength := littleEndian content 4 1
  if content.size = 7 ∧ 1 ≤ version ∧ version ≤ 2 ∧ shortAt content 2 = cipherMaker ∧
      1 ≤ strength ∧ strength ≤ 3 then
    some { h with hasCipher := true, method := shortAt content 5 }
  else none

/-! ## Fields -/

/-- Whether a field of system times is one that can be read: four bytes that
mean nothing, a tag, the size of the times, and three times. -/
def areSystemTimes (content : ByteArray) : Bool :=
  content.size == 32 && shortAt content 4 == 1 && shortAt content 6 == 24

/-- The number of bits that are set among the lowest eight. -/
def bitCount (value : Nat) : Nat :=
  (List.range 8).countP value.testBit

/-- Whether a field of times is one that can be read: a byte, and a time for
every bit that is set in it. A single time is right whatever the byte says. -/
def areTimes (content : ByteArray) : Bool :=
  content.size == 5 || content.size == 1 + 4 * bitCount (littleEndian content 0 1)

/-- Takes an extra field. Fields of other kinds change nothing. -/
def withField? (h : Header) (f : ExtraField) : Option Header :=
  if f.kind = ExtraField.wideKind then h.withWideNumbers? f.content
  else if f.kind = ExtraField.nameKind then h.withName? f.content
  else if f.kind = ExtraField.commentKind then h.withComment? f.content
  else if f.kind = ExtraField.cipherKind then h.withCipher? f.content
  else if f.kind = ExtraField.systemTimesKind then
    if areSystemTimes f.content then some h else none
  else if f.kind = ExtraField.timesKind then
    if areTimes f.content then some h else none
  else some h

/-- The method that stands in a header for one that a field has. -/
def cipherMethod : Nat := 99

/-- Takes all extra fields. The method that stands for another one must have
been replaced. -/
def withFields? (h : Header) (fields : List ExtraField) : Option Header := do
  let h ← fields.foldlM withField? h
  if h.method = cipherMethod ∧ !h.hasCipher then none else some h

/-! ## Reading -/

/-- The four bytes that a header starts with. -/
def signature : Nat := 0x02014b50

/-- The size of a header without its name, extra fields and comment. -/
def fixedSize : Nat := 46

/-- The text of a name or a comment: the flags say whether it is UTF-8. -/
def text (flags : Nat) (bytes : ByteArray) : String :=
  if flags.testBit 11 then Text.ofUtf8Lossy bytes else Text.ofCodePage bytes

/-- What the parts of a header say whose name ends at a place and whose extra
fields end at another, before the fields are taken. -/
def plain (data : ByteArray) (place nameEnd fieldsEnd stop : Nat) : Header :=
  let flags := shortAt data (place + 8)
  let nameBytes := data.extract (place + fixedSize) nameEnd
  { nameBytes := nameBytes
    name := text flags nameBytes
    comment := text flags (data.extract fieldsEnd stop)
    isEncrypted := flags.testBit 0
    hasCipher := false
    method := shortAt data (place + 10)
    checksum := UInt32.ofNat (longAt data (place + 16))
    packedSize := longAt data (place + 20)
    size := longAt data (place + 24)
    place := longAt data (place + 42) }

/-- Moves the entry behind what stands in front of the archive, as far as places
go. -/
def shifted? (h : Header) (shift : Nat) : Option Header :=
  if shift + h.place < UInt64.size then some { h with place := shift + h.place } else none

/-- The header at a place and the place after it. `shift` is the number of bytes
in front of the archive. -/
def read? (data : ByteArray) (shift place : Nat) : Option (Header × Nat) := do
  let nameEnd := place + fixedSize + shortAt data (place + 28)
  let fieldsEnd := nameEnd + shortAt data (place + 30)
  let stop := fieldsEnd + shortAt data (place + 32)
  if longAt data place = signature ∧ stop ≤ data.size then
    let fields ← ExtraField.all? (data.extract nameEnd fieldsEnd)
    let h ← (plain data place nameEnd fieldsEnd stop).withFields? fields
    return (← h.shifted? shift, stop)
  else none

/-- Reads several headers, one after the other. -/
def readAll? (data : ByteArray) (shift : Nat) : Nat → Nat → Option (List Header)
  | 0, _ => some []
  | n + 1, place => do
    let (first, place) ← read? data shift place
    let rest ← readAll? data shift n place
    return first :: rest

end Header

end ClassLens.Archive
