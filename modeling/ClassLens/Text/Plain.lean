/-
Plain text: what is left of a text when everything in it that only speaks to a
terminal is taken out.

A control sequence starts with an escape character. The character after it tells
the sort of the sequence, and the sort where it ends: most are over after a
character or two, control functions run up to a letter or sign, and strings up
to a terminator of theirs. A sequence that is not ended takes out all that
follows. Control characters on their own are taken out as well, except for those
that count as white space.

White space is kept wherever it is, save in a string. It interrupts the sequence
that it stands in: what follows is shown up to the next control character, and
is read as a part of the sequence again from there on. A character beyond ASCII
in between ends the sequence.
-/

set_option autoImplicit false

namespace ClassLens.Text

/-- Where in a control sequence a text stands. -/
inductive SequencePart where
  /-- In no sequence. -/
  | outside
  /-- Behind the escape character. -/
  | opening
  /-- Behind the escape character and signs that choose among sequences. -/
  | choice
  /-- In a control function. -/
  | function
  /-- In front of the parameters of a device string. -/
  | deviceStart
  /-- In the parameters of a device string. -/
  | deviceParameters
  /-- Behind the parameters of a device string, in signs that choose. -/
  | deviceChoice
  /-- In a string for the operating system. -/
  | systemString
  /-- In any other string. -/
  | string
  deriving DecidableEq, Repr

namespace SequencePart

/-! ## Classes of characters -/

/-- Whether a character is in a closed range of code points. -/
def isIn (c : Char) (low high : Nat) : Bool :=
  low ≤ c.toNat && c.toNat ≤ high

/-- Whether a character gives up a sequence wherever it stands. -/
def isCancel (c : Char) : Bool :=
  c == '\x18' || c == '\x1a'

/-- Whether a character is a control character that counts as white space. -/
def isSpaceControl (c : Char) : Bool :=
  c == '\t' || c == '\n' || c == '\x0c' || c == '\r'

/-- The byte that terminates a string. -/
def terminator : UInt8 := 0x9c

/-- Whether the terminator of strings is among the bytes of a character. Strings
are made of bytes, so it counts even there. -/
def holdsTerminator (c : Char) : Bool :=
  (String.utf8EncodeChar c).contains terminator

/-! ## Steps -/

/-- Whether a character is shown that comes at a part. -/
def shows : SequencePart → Char → Bool
  | outside, c => isSpaceControl c || (0x20 ≤ c.toNat && c != '\x7f')
  | opening, c | choice, c | function, c => isSpaceControl c
  | _, _ => false

/-- The part behind the escape character and a character after it. -/
def afterOpening (c : Char) : SequencePart :=
  if isIn c 0x20 0x2f then choice
  else if c == '[' then function
  else if c == ']' then systemString
  else if c == 'P' then deviceStart
  else if c == 'X' || c == '^' || c == '_' then string
  else if isIn c 0x30 0x7e then outside
  else opening

/-- The part behind a character, except for those characters that mean the same
at all parts. -/
def afterOther : SequencePart → Char → SequencePart
  | outside, _ => outside
  | opening, c => afterOpening c
  | choice, c => if isIn c 0x30 0x7e then outside else choice
  | function, c => if isIn c 0x40 0x7e then outside else function
  | deviceStart, c =>
    if isIn c 0x20 0x2f then deviceChoice
    else if isIn c 0x30 0x3f then deviceParameters
    else if isIn c 0x40 0x7e then string
    else deviceStart
  | deviceParameters, c =>
    if isIn c 0x20 0x2f then deviceChoice
    else if isIn c 0x3c 0x7e then string
    else deviceParameters
  | deviceChoice, c => if isIn c 0x30 0x7e then string else deviceChoice
  | systemString, c => if c == '\x07' then outside else systemString
  | string, c => if holdsTerminator c then outside else string

end SequencePart

/-- How far a text has been read: the part where it stands, and whether the
sequence there is interrupted. -/
structure SequenceState where
  part : SequencePart
  isInterrupted : Bool
  deriving DecidableEq, Repr

namespace SequenceState

/-- In no sequence. -/
def outside : SequenceState := ⟨.outside, false⟩

/-- Whether a character is shown that comes at a state. -/
def shows (s : SequenceState) (c : Char) : Bool :=
  if s.isInterrupted then SequencePart.outside.shows c else s.part.shows c

/-- The state behind a character. -/
def after (s : SequenceState) (c : Char) : SequenceState :=
  if c == '\x1b' then ⟨.opening, false⟩
  else if SequencePart.isCancel c then outside
  else if s.shows c then
    if c.toNat < 0x80 then { s with isInterrupted := s.part != .outside } else outside
  else if s.isInterrupted then { s with isInterrupted := false }
  else ⟨s.part.afterOther c, false⟩

end SequenceState

/-- The characters that are shown of those that come at a state. -/
def plainFrom : SequenceState → List Char → List Char
  | _, [] => []
  | s, c :: rest =>
    if s.shows c then c :: plainFrom (s.after c) rest else plainFrom (s.after c) rest

/-- A text without control sequences and control characters. -/
def plain (s : String) : String :=
  String.ofList (plainFrom .outside s.toList)

end ClassLens.Text
