/-
Modified UTF-8, the encoding of names and strings in class files.

It differs from UTF-8 in two ways: the null character takes the two bytes C0 80,
and a character beyond U+FFFF is written as the two surrogates that stand for it
in UTF-16, each in three bytes. Bytes that are plain UTF-8 already are taken as
they are, so the rules here only decide what else is text.
-/

set_option autoImplicit false

namespace ClassLens.Text

/-- Whether a byte continues a sequence. -/
private def isContinuation (b : UInt8) : Bool :=
  0x80 ≤ b.toNat && b.toNat ≤ 0xbf

/-- The six bits that a continuation byte carries. -/
private def payload (b : UInt8) : Nat :=
  b.toNat % 64

/-- The number in three bytes of a three-byte sequence. -/
private def threeBytes (a b c : UInt8) : Nat :=
  (a.toNat % 16 * 64 + payload b) * 64 + payload c

/-- Whether the first two bytes can start a three-byte sequence that is not a
surrogate: nothing that fits two bytes, and nothing from U+D800 to U+DFFF. -/
private def startsThree (a b : UInt8) : Bool :=
  if a = 0xe0 then 0xa0 ≤ b.toNat && b.toNat ≤ 0xbf
  else if a = 0xed then 0x80 ≤ b.toNat && b.toNat ≤ 0x9f
  else 0xe1 ≤ a.toNat && a.toNat ≤ 0xef && isContinuation b

/-- The character of two surrogates, given the numbers of both. -/
private def surrogatePair (high low : Nat) : Char :=
  Char.ofNat (0x10000 + (high - 0xd800) * 0x400 + (low - 0xdc00))

/-- Reads modified UTF-8. The characters read so far come newest first. -/
def modifiedFrom : List UInt8 → List Char → Option (List Char)
  | [], read => some read.reverse
  | a :: rest, read =>
    if a = 0x00 then none
    else if a.toNat < 0x80 then modifiedFrom rest (Char.ofNat a.toNat :: read)
    else match rest with
      | [] => none
      | b :: rest =>
        if a = 0xc0 then
          if b = 0x80 then modifiedFrom rest ('\x00' :: read) else none
        else if 0xc2 ≤ a.toNat && a.toNat ≤ 0xdf then
          if isContinuation b then
            modifiedFrom rest (Char.ofNat (a.toNat % 32 * 64 + payload b) :: read)
          else none
        else match rest with
          | [] => none
          | c :: rest =>
            if !isContinuation c then none
            else if startsThree a b then
              modifiedFrom rest (Char.ofNat (threeBytes a b c) :: read)
            else if a = 0xed && 0xa0 ≤ b.toNat && b.toNat ≤ 0xaf then
              match rest with
              | d :: e :: f :: rest =>
                if d = 0xed && 0xb0 ≤ e.toNat && e.toNat ≤ 0xbf && isContinuation f then
                  modifiedFrom rest
                    (surrogatePair (threeBytes a b c) (threeBytes d e f) :: read)
                else none
              | _ => none
            else none

/-- The text of bytes that are UTF-8, or else modified UTF-8. -/
def ofModifiedUtf8? (bytes : ByteArray) : Option String :=
  match String.fromUTF8? bytes with
  | some text => some text
  | none => (modifiedFrom bytes.data.toList []).map String.ofList

end ClassLens.Text
