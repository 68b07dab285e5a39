import Beatmap.Number.Floating
import Beatmap.Number.Integer
import Beatmap.Text.Ascii
import Beatmap.Text.Pieces

/-!
# Decimal numbers

A `Decimal` is an exact value: a sign, a natural number and a power of ten. `Decimal.toFloating`
rounds it once to the target format, so a 32-bit number is never rounded through 64 bits.

Exponents are unbounded in the input. Powers of ten far outside the range of the format are decided
without being computed; since `8 < 10`, comparing the exponent with the number of bits is enough.
-/

namespace Beatmap.Number

open Beatmap.Text (cutFirst lowerAsciiText)

/-- The value `digits * 10 ^ exponent` with a sign. Zero is signed. -/
structure Decimal where
  negative : Bool
  digits : Nat
  exponent : Int
  deriving DecidableEq

/-- The magnitude nearest to `digits * 10 ^ exponent`. -/
def nearestDecimal (f : Format) (digits : Nat) (exponent : Int) : Nat :=
  if digits = 0 then 0
  else match exponent with
  | .ofNat up =>
    -- `10 ^ up` is more than `2 ^ (3 * up)`, beyond every finite value.
    if 2 ^ (f.exponentBits - 1) ≤ 3 * up then f.infinity else nearest f (digits * 10 ^ up) 1
  | .negSucc down =>
    -- Less than half of the least positive value, since `10 ^ -1` is less than `2 ^ -3`.
    if digits.log2 + 2 + f.scale ≤ 3 * (down + 1) then 0
    else nearest f digits (10 ^ (down + 1))

theorem nearestDecimal_le_infinity (f : Format) (digits : Nat) (exponent : Int) :
    nearestDecimal f digits exponent ≤ f.infinity := by
  unfold nearestDecimal
  split
  · exact Nat.zero_le _
  · split <;> split
    · exact Nat.le_refl _
    · exact nearest_le_infinity ..
    · exact Nat.zero_le _
    · exact nearest_le_infinity ..

/-- The floating-point number nearest to a decimal. -/
def Decimal.toFloating (f : Format) (d : Decimal) : Floating f where
  negative := d.negative
  magnitude := nearestDecimal f d.digits d.exponent
  magnitude_lt := Nat.lt_of_le_of_lt (nearestDecimal_le_infinity ..) f.infinity_lt_limit

/-- Parses digits with at most one point, at least one digit in all. Returns the digits as a natural
number and the number of digits after the point. -/
def readPointed (text : List Char) : Option (Nat × Nat) :=
  match cutFirst '.' text with
  | none => (readNat text).map (·, 0)
  | some (whole, fraction) => (readNat (whole ++ fraction)).map (·, fraction.length)

/-- Whether `c` starts the exponent of a decimal. -/
def isExponentMark (c : Char) : Bool := c == 'e' || c == 'E'

/-- Parses an unsigned decimal: digits with at most one point, optionally followed by `e` or `E` and
a signed integer. -/
def readUnsigned (negative : Bool) (text : List Char) : Option Decimal := do
  let (digits, places) ← readPointed (text.takeWhile (!isExponentMark ·))
  let exponent ← match text.dropWhile (!isExponentMark ·) with
    | [] => some 0
    | _ :: written => readInt written
  return ⟨negative, digits, exponent - places⟩

/-- Parses a floating-point number: an optional sign, followed by a decimal or, in any case, by
`inf`, `infinity` or `nan`. -/
def readFloating (f : Format) (text : List Char) : Option (Floating f) :=
  let (negative, rest) := readSign text
  let word := lowerAsciiText rest
  if word = "inf".toList ∨ word = "infinity".toList then some (.infinite negative)
  else if word = "nan".toList then some (.notANumber negative)
  else (readUnsigned negative rest).map (Decimal.toFloating f)

end Beatmap.Number
