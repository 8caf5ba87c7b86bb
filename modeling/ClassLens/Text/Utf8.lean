/-
UTF-8 with replacements: every byte sequence is read as some text.

Where bytes are not UTF-8 a replacement character stands for them, one for each
longest piece that could have begun a character. So a sequence that breaks off
is replaced once, and a byte that can begin nothing is replaced by itself.
-/

set_option autoImplicit false

namespace ClassLens.Text

/-- The character that stands for bytes that are not text. -/
def replacement : Char := '\ufffd'

/-- How many bytes follow the first one of a character, with the least and the
greatest value of the second byte. The bounds shut out what fits in fewer bytes,
surrogates, and numbers beyond the last character. -/
def continuation? (first : UInt8) : Option (Nat × Nat × Nat) :=
  let a := first.toNat
  if 0xc2 ≤ a ∧ a ≤ 0xdf then some (1, 0x80, 0xbf)
  else if a = 0xe0 then some (2, 0xa0, 0xbf)
  else if a = 0xed then some (2, 0x80, 0x9f)
  else if 0xe1 ≤ a ∧ a ≤ 0xef then some (2, 0x80, 0xbf)
  else if a = 0xf0 then some (3, 0x90, 0xbf)
  else if 0xf1 ≤ a ∧ a ≤ 0xf3 then some (3, 0x80, 0xbf)
  else if a = 0xf4 then some (3, 0x80, 0x8f)
  else none

/-- The bits of a first byte that belong to its character. -/
def leadPayload (first : UInt8) (following : Nat) : Nat :=
  first.toNat % (1 <<< (6 - following))

/-- A character of which some bytes were read: how many are missing, the bounds
of the next one, and the number that the bytes so far make up. -/
structure Pending where
  missing : Nat
  low : Nat
  high : Nat
  number : Nat

/-- Takes a byte that begins a character or stands alone. -/
def beginChar (byte : UInt8) (read : List Char) : List Char × Option Pending :=
  if byte.toNat < 0x80 then (Char.ofNat byte.toNat :: read, none)
  else match continuation? byte with
    | none => (replacement :: read, none)
    | some (missing, low, high) => (read, some ⟨missing, low, high, leadPayload byte missing⟩)

/-- Takes the next byte. The characters read so far come newest first. -/
def takeByte (read : List Char) (pending : Option Pending) (byte : UInt8) :
    List Char × Option Pending :=
  match pending with
  | none => beginChar byte read
  | some p =>
    if p.low ≤ byte.toNat ∧ byte.toNat ≤ p.high then
      let number := p.number * 64 + byte.toNat % 64
      if p.missing = 1 then (Char.ofNat number :: read, none)
      else (read, some ⟨p.missing - 1, 0x80, 0xbf, number⟩)
    else beginChar byte (replacement :: read)

/-- The text of bytes, with replacements where they are not UTF-8. -/
def ofUtf8Lossy (bytes : ByteArray) : String :=
  let (read, pending) := bytes.data.toList.foldl
    (fun (read, pending) byte => takeByte read pending byte) ([], none)
  String.ofList (if pending.isSome then replacement :: read else read).reverse

end ClassLens.Text
