/-
Texts of the system: the paths, the names and the words that it hands over.

A system does not ask that its texts be Unicode, so here they are bytes. Where one
is shown, replacements stand for what is no text in it; where one is needed as a
text, there may be none.
-/
import ClassLens.Text.Utf8

set_option autoImplicit false

namespace ClassLens

/-- A text of the system. -/
abbrev OsText := List UInt8

namespace OsText

/-- A text as the system has it. -/
def ofString (s : String) : OsText :=
  s.toUTF8.data.toList

/-- The text that the bytes are, if they are one. -/
def text? (t : OsText) : Option String :=
  String.fromUTF8? ⟨t.toArray⟩

/-- The text that the bytes are shown as. -/
def lossy (t : OsText) : String :=
  Text.ofUtf8Lossy ⟨t.toArray⟩

end OsText

end ClassLens
