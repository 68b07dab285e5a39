/-!
# ASCII letters

Lower case for the 26 ASCII letters; all other characters are unchanged.
-/

namespace Beatmap.Text

/-- Lower case of an ASCII letter; other characters are unchanged. -/
def lowerAscii (c : Char) : Char := if 'A' ≤ c ∧ c ≤ 'Z' then Char.ofNat (c.toNat + 32) else c

/-- A text with its ASCII letters in lower case. -/
def lowerAsciiText (text : List Char) : List Char := text.map lowerAscii

end Beatmap.Text
