/-
The records at the end of an archive: where its directory is.

An archive ends with a record that says where its directory starts and how many
headers it has. Where one of these numbers is too great, another record with
wider numbers stands in front of it, and between the two a locator that says
where the wide record is.

Both records count from the start of the archive, and other bytes may stand in
front of that. What was put there can only have moved things on, so what is
looked for is the first thing of its sort from where the record says it is; how
far that is off is how far every place in the archive is off.
-/
import ClassLens.Archive.Header

set_option autoImplicit false

namespace ClassLens.Archive

/-- What is found at the first of `n` places from `start` on that has anything
to find. -/
def firstFrom? {α : Type} (find : Nat → Option α) : Nat → Nat → Option α
  | 0, _ => none
  | n + 1, start =>
    match find start with
    | some a => some a
    | none => firstFrom? find n (start + 1)

/-- Where the directory of an archive is. -/
structure DirectoryPlace where
  /-- The number of bytes in front of the archive. -/
  shift : Nat
  /-- Where the directory starts, counted from the start of the archive. -/
  offset : Nat
  headers : Nat
  deriving DecidableEq, Repr

/-! ## The last record -/

/-- The record at the end of an archive. -/
structure EndRecord where
  disk : Nat
  directoryDisk : Nat
  /-- The number of entries on the disk of the record, which are those that the
  directory has headers for. -/
  headers : Nat
  /-- The number of entries on all disks. -/
  entries : Nat
  /-- Where the directory starts, counted from the start of the archive. -/
  offset : Nat
  deriving DecidableEq, Repr

namespace EndRecord

/-- The four bytes that the record starts with. -/
def signature : Nat := 0x06054b50

/-- The size of the record without its comment. -/
def fixedSize : Nat := 22

/-- The record at a place. Its comment must end within the data. -/
def read? (data : ByteArray) (place : Nat) : Option EndRecord :=
  -- the signature may also turn up by chance, so the sizes are checked as well
  if longAt data place = signature ∧ place + fixedSize ≤ data.size ∧
      place + fixedSize + shortAt data (place + 20) ≤ data.size then
    some {
      disk := shortAt data (place + 4)
      directoryDisk := shortAt data (place + 6)
      headers := shortAt data (place + 8)
      entries := shortAt data (place + 10)
      offset := longAt data (place + 16) }
  else none

/-- Whether a number of the record may be too great for its place. -/
def mayBeWide (r : EndRecord) : Bool :=
  r.entries == maxShort || r.offset == maxLong

/-- The number of bytes in front of an archive whose record stands at a place.
An archive without entries has no header to go by. -/
def shift? (r : EndRecord) (data : ByteArray) (place : Nat) : Option Nat :=
  if r.entries = 0 then some (place - r.offset)
  else
    let isHeader (start : Nat) : Option Nat :=
      if longAt data start = Header.signature then some start else none
    (firstFrom? isHeader (place - r.offset) r.offset).map (· - r.offset)

/-- Where the directory is, by a record at a place. -/
def directoryPlace? (r : EndRecord) (data : ByteArray) (place : Nat) :
    Option DirectoryPlace := do
  let shift ← r.shift? data place
  if r.disk = r.directoryDisk then some ⟨shift, r.offset, r.headers⟩ else none

end EndRecord

/-! ## The wide record -/

/-- What leads to the wide record. -/
structure Locator where
  place : Nat
  directoryDisk : Nat
  /-- Where the wide record starts, counted from the start of the archive. -/
  offset : Nat
  disks : Nat
  deriving DecidableEq, Repr

namespace Locator

/-- The four bytes that a locator starts with. -/
def signature : Nat := 0x07064b50

/-- The size of a locator. -/
def size : Nat := 20

/-- The locator right in front of the last record. -/
def before? (data : ByteArray) (recordPlace : Nat) : Option Locator :=
  let place := recordPlace - size
  if size ≤ recordPlace ∧ longAt data place = signature then
    some {
      place := place
      directoryDisk := longAt data (place + 4)
      offset := wideAt data (place + 8)
      disks := longAt data (place + 16) }
  else none

end Locator

/-- The record with wider numbers. -/
structure WideRecord where
  place : Nat
  disk : Nat
  directoryDisk : Nat
  /-- The number of entries on the disk of the record. -/
  diskEntries : Nat
  /-- The number of entries on all disks. -/
  entries : Nat
  /-- Where the directory starts, counted from the start of the archive. -/
  offset : Nat
  deriving DecidableEq, Repr

namespace WideRecord

/-- The four bytes that the record starts with. -/
def signature : Nat := 0x06064b50

/-- The size of the record without the room it may have at its end. -/
def fixedSize : Nat := 56

/-- The number of bytes of the record that its own size does not count. -/
def uncounted : Nat := 12

/-- The wide record at a place that a locator may lead to: it ends where the
locator starts, and has room in front of it for its headers. -/
def readAt? (data : ByteArray) (l : Locator) (place : Nat) : Option WideRecord :=
  let size := wideAt data (place + 4) + uncounted
  let r : WideRecord := {
    place := place
    disk := longAt data (place + 16)
    directoryDisk := longAt data (place + 20)
    diskEntries := wideAt data (place + 24)
    entries := wideAt data (place + 32)
    offset := wideAt data (place + 48) }
  if longAt data place = signature ∧ fixedSize ≤ size ∧ place + size = l.place ∧
      r.directoryDisk = l.directoryDisk ∧ r.entries * Header.fixedSize + r.offset ≤ place then
    some r
  else none

/-- The wide record that a locator leads to. -/
def read? (data : ByteArray) (l : Locator) : Option WideRecord :=
  if l.disks ≤ 1 then firstFrom? (readAt? data l) (l.place - l.offset) l.offset else none

/-- Where the directory is, by the wide record that a locator leads to. -/
def directoryPlace? (data : ByteArray) (l : Locator) : Option DirectoryPlace := do
  let r ← read? data l
  if r.diskEntries ≤ r.entries ∧ r.disk = r.directoryDisk then
    some ⟨r.place - l.offset, r.offset, r.entries⟩
  else none

end WideRecord

/-! ## Both -/

/-- Where the directory of an archive is whose last record stands at a place. -/
def directoryPlace? (data : ByteArray) (place : Nat) : Option DirectoryPlace := do
  let r ← EndRecord.read? data place
  match if r.mayBeWide then Locator.before? data place else none with
  | some l => WideRecord.directoryPlace? data l
  | none => r.directoryPlace? data place

end ClassLens.Archive
