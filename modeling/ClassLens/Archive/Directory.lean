/-
The directory of an archive: its headers.

Other bytes may stand behind an archive, and what looks like its last record may
be a part of something else. So the record is searched backwards from the end of
the data, and the one that is closest to the end and leads to a readable
directory counts.
-/
import ClassLens.Archive.EndRecord

set_option autoImplicit false

namespace ClassLens.Archive

/-- The headers of the directory that the record at a place leads to. -/
def headersAt? (data : ByteArray) (place : Nat) : Option (List Header) := do
  let d ← directoryPlace? data place
  Header.readAll? data d.shift d.headers (d.shift + d.offset)

/-- The headers of the directory that the last record before a place leads to,
among those that lead to one. -/
def headersBefore? (data : ByteArray) : Nat → Option (List Header)
  | 0 => none
  | place + 1 =>
    match headersAt? data place with
    | some headers => some headers
    | none => headersBefore? data place

/-- The headers of the directory of an archive. -/
def headers? (data : ByteArray) : Option (List Header) :=
  headersBefore? data data.size

/-- Puts a header behind those of other names, or in the place of the one that
has its name. -/
def insertHeader (headers : List Header) (h : Header) : List Header :=
  if headers.any (·.name == h.name) then
    headers.map fun own => if own.name == h.name then h else own
  else headers ++ [h]

/-- The headers, one for each name. Of several with one name the last counts. -/
def distinctHeaders (headers : List Header) : List Header :=
  headers.foldl insertHeader []

end ClassLens.Archive
