/-
Code page 437, in which older archives name their entries.

Bytes below 128 are the characters of that number. The others are the letters,
box drawings and signs of the table, in order.
-/

set_option autoImplicit false

namespace ClassLens.Text

/-- The characters of the bytes from 128 on. -/
def upperPage : Array Char :=
  ("ÇüéâäàåçêëèïîìÄÅÉæÆôöòûùÿÖÜ¢£¥₧ƒáíóúñÑªº¿⌐¬½¼¡«»░▒▓│┤╡╢╖╕╣║╗╝╜╛┐" ++
    "└┴┬├─┼╞╟╚╔╩╦╠═╬╧╨╤╥╙╘╒╓╫╪┘┌█▄▌▐▀αßΓπΣσµτΦΘΩδ∞φε∩≡±≥≤⌠⌡÷≈°∙·√ⁿ²■\u00a0").toList.toArray

/-- The character of a byte. -/
def pageChar (byte : UInt8) : Char :=
  if byte.toNat < 128 then Char.ofNat byte.toNat else upperPage[byte.toNat - 128]?.getD '?'

/-- The text of bytes in the code page. -/
def ofCodePage (bytes : ByteArray) : String :=
  String.ofList (bytes.data.toList.map pageChar)

end ClassLens.Text
