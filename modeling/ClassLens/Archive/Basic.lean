/-
Archives: named entries, each stored as it is or packed in one of several ways.

Opening an archive and reading an entry are two steps, and each can fail.
Opening looks at the directory and at the start of every entry, in the order of
the directory, so the first entry that cannot be opened spoils the archive; reading
unpacks one entry and compares its checksum, and spoils nothing else.
-/
import ClassLens.Archive.Bzip2.Stream
import ClassLens.Archive.Directory
import ClassLens.Archive.Inflate
import ClassLens.Archive.Lzma.Entry
import ClassLens.Archive.Ppmd.Unpacking
import ClassLens.Archive.Xz.Stream
import ClassLens.Archive.Zstandard.Frame

set_option autoImplicit false

namespace ClassLens.Archive

/-- How an entry is packed. -/
inductive Packing where
  | stored
  | deflated
  | wideDeflated
  | bzip2
  | lzma
  | zstandard
  | xz
  | ppmd
  deriving DecidableEq, Repr

namespace Packing

/-- The methods that entries may be packed with, by their numbers. -/
def methods : List (Nat × Packing) :=
  [(0, stored), (8, deflated), (9, wideDeflated), (12, bzip2),
    (14, lzma), (93, zstandard), (95, xz), (98, ppmd)]

/-- How an entry with the given method is packed. -/
def of? (method : Nat) : Option Packing :=
  (methods.find? (·.1 == method)).map (·.2)

/-- The content of packed bytes, which has the given size. Only one way of packing
does not tell where the content ends. -/
def unpack? (p : Packing) (packed : ByteArray) (size : Nat) : Option ByteArray :=
  match p with
  | .stored => some packed
  | .deflated => DeflateFormat.narrow.inflate? packed
  | .wideDeflated => DeflateFormat.wide.inflate? packed
  | .bzip2 => Bzip2.unpack? packed
  | .lzma => Lzma.unpack? packed size
  | .zstandard => Zstandard.unpack? packed
  | .xz => Xz.unpack? packed
  | .ppmd => Ppmd.unpack? packed

end Packing

/-- An entry that was opened. -/
structure Entry where
  name : String
  /-- The size of the content, as the directory has it. -/
  size : Nat
  packing : Packing
  packed : ByteArray
  checksum : UInt32

/-- Why an entry cannot be read. -/
inductive ContentFault where
  /-- Its bytes are not packed as they should be. -/
  | malformed
  /-- What was unpacked has another checksum. -/
  | checksum
  deriving DecidableEq, Repr

namespace Entry

/-- Whether an entry is a folder, which its name tells. -/
def isFolder (e : Entry) : Bool :=
  match e.name.toList.getLast? with
  | some c => c == '/' || c == '\\'
  | none => false

/-- The content of an entry, if it can be unpacked and is what was packed. -/
def content (e : Entry) : Except ContentFault ByteArray :=
  match e.packing.unpack? e.packed e.size with
  | none => .error .malformed
  | some bytes =>
    if Archive.checksum bytes == e.checksum then .ok bytes else .error .checksum

end Entry

/-- The four bytes that an entry starts with. -/
def entrySignature : Nat := 0x04034b50

/-- The size of the start of an entry without its name and extra fields. -/
def entryStart : Nat := 30

/-- Why an entry cannot be opened. -/
inductive EntryFault where
  /-- It takes a password. -/
  | encrypted
  /-- The data ends before its start does. -/
  | cutOff
  /-- It does not start as entries do. -/
  | badSignature
  /-- It is packed in a way that is not known. -/
  | unknownMethod
  /-- A field says how it is encrypted, although it is said to be not. -/
  | cipher
  deriving DecidableEq, Repr

/-- Opens the entry of a header. Its bytes follow what stands at the start of
the entry, and are cut off where the data ends. -/
def opened (data : ByteArray) (h : Header) : Except EntryFault Entry :=
  if h.isEncrypted then .error .encrypted
  else if data.size < h.place + entryStart then .error .cutOff
  else if longAt data h.place ≠ entrySignature then .error .badSignature
  else match Packing.of? h.method with
    | none => .error .unknownMethod
    | some packing =>
      if h.hasCipher then .error .cipher
      else
        let start :=
          h.place + entryStart + shortAt data (h.place + 26) + shortAt data (h.place + 28)
        .ok {
          name := h.name
          size := h.size
          packing := packing
          packed := data.extract start (min (start + h.packedSize) data.size)
          checksum := h.checksum }

/-- Opens the entries of some headers one after the other, up to the first that
cannot be opened. -/
def openAll (data : ByteArray) : List Header → Except EntryFault (List Entry)
  | [] => .ok []
  | h :: rest =>
    match opened data h with
    | .error fault => .error fault
    | .ok e => (openAll data rest).map (e :: ·)

/-- Why an archive cannot be opened. -/
inductive Fault where
  /-- There is no directory in it that can be read. -/
  | noDirectory
  /-- One of its entries cannot be opened. -/
  | entry (cause : EntryFault)
  deriving DecidableEq, Repr

/-- Opens an archive: its entries in the order of the directory. -/
def entries (data : ByteArray) : Except Fault (List Entry) :=
  match headers? data with
  | none => .error .noDirectory
  | some headers => (openAll data (distinctHeaders headers)).mapError .entry

end ClassLens.Archive
