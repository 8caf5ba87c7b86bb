/-
Quoted text: a string between double quotes, with everything that would not
show as itself written as an escape.

Six characters have escapes of two characters. Any other character without a
printed form, and any that attaches to the character before it, is written as
its code point in braces. All else stands for itself, the single quote
included.
-/
import ClassLens.Text.GraphemeExtend
import ClassLens.Text.Unprintable

set_option autoImplicit false

namespace ClassLens.Text

/-- The lower-case hexadecimal digits of a number, without leading zeros. -/
def hexDigits (n : Nat) : List Char :=
  Nat.toDigits 16 n

/-- The characters that one character is written as. A character between the
space and the tilde is printable, so the tables are not asked about it. -/
def quoteChar (c : Char) : List Char :=
  if c = '\x00' then ['\\', '0']
  else if c = '\t' then ['\\', 't']
  else if c = '\r' then ['\\', 'r']
  else if c = '\n' then ['\\', 'n']
  else if c = '"' then ['\\', '"']
  else if c = '\\' then ['\\', '\\']
  else if ' ' ≤ c ∧ c ≤ '~' then [c]
  else if isGraphemeExtend c || isUnprintable c then
    ['\\', 'u', '\x7b'] ++ hexDigits c.toNat ++ ['\x7d']
  else [c]

/-- A string in quotes. -/
def quoted (s : String) : String :=
  String.ofList ('"' :: s.toList.flatMap quoteChar ++ ['"'])

end ClassLens.Text
