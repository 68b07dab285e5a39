/-!
# Code page 437

The default one-byte encoding of names in zip archives. Bytes below `0x80` are ASCII.
-/

namespace Beatmap.Text.CodePage437

/-- The characters of the bytes from `0x80` on. -/
def upperHalf : List Char :=
  ("ÇüéâäàåçêëèïîìÄÅÉæÆôöòûùÿÖÜ¢£¥₧ƒ" ++ "áíóúñÑªº¿⌐¬½¼¡«»░▒▓│┤╡╢╖╕╣║╗╝╜╛┐"
    ++ "└┴┬├─┼╞╟╚╔╩╦╠═╬╧╨╤╥╙╘╒╓╫╪┘┌█▄▌▐▀" ++ "αßΓπΣσµτΦΘΩδ∞φε∩≡±≥≤⌠⌡÷≈°∙·√ⁿ²■\u00a0").toList

/-- The character of a byte. -/
def charOf (b : UInt8) : Char :=
  if b < 0x80 then Char.ofNat b.toNat else upperHalf.getD (b.toNat - 0x80) '?'

/-- Decodes a list of bytes. -/
def decode (bytes : List UInt8) : List Char := bytes.map charOf

end Beatmap.Text.CodePage437
