import Beatmap.Json.Basic
import Beatmap.Number.Shortest

/-!
# Floating-point numbers in JSON

A finite number is printed with the shortest decimal that reads back as the same number. The
exponent of the leading digit determines the notation: within the range of the `Layout` it is
positional, with a digit on both sides of the point, and outside it is scientific.

A number that is not a 64-bit integer is read in double precision with two roundings: of its leading
digits, as far as they fit 64 bits, and of their product with a power of ten. The result may differ
from the correctly rounded one in the last bit for more than fifteen digits.
-/

namespace Beatmap.Json

open Beatmap.Number

/-! ## Printing -/

/-- The exponents of the leading digit for which positional notation is used. -/
structure Layout where
  least : Int
  greatest : Int
  deriving DecidableEq, Repr

/-- The positional range of 64-bit numbers. -/
def doubleLayout : Layout := ⟨-5, 15⟩

/-- The positional range of 32-bit numbers. -/
def singleLayout : Layout := ⟨-6, 12⟩

/-- The literal of a decimal. -/
def Layout.literal (layout : Layout) (d : Decimal) : Literal :=
  let digits := Value.digitsOf d.digits
  let leading : Int := d.exponent + digits.length - 1
  if layout.least ≤ leading ∧ leading ≤ layout.greatest then
    match leading with
    | .ofNat n =>
      let fraction := digits.drop (n + 1)
      { negative := d.negative
        whole := digits.take (n + 1) ++ List.replicate (n + 1 - digits.length) '0'
        fraction := if fraction.isEmpty then ['0'] else fraction }
    | .negSucc n =>
      { negative := d.negative, whole := ['0'], fraction := List.replicate n '0' ++ digits }
  else
    { negative := d.negative, whole := digits.take 1, fraction := digits.drop 1
      exponent := some leading }

/-- The value of a floating-point number; `null` if it is not finite. -/
def Value.floating (layout : Layout) {f : Format} (x : Floating f) : Value :=
  if x.isFinite then .number (layout.literal x.shortest) else .null

/-- The value of a 64-bit number. -/
def Value.double (x : Double) : Value := .floating doubleLayout x

/-- The value of a 32-bit number. -/
def Value.single (x : Single) : Value := .floating singleLayout x

/-! ## Decoding integers -/

/-- The integer of a literal. A fraction, an exponent and a negative zero are not integers. -/
def Literal.int? (l : Literal) : Option Int :=
  if l.fraction.isEmpty && l.exponent.isNone then
    let n := digitsValue l.whole
    if !l.negative then some n else if n = 0 then none else some (-(n : Int))
  else none

/-- The integer of a value, if it lies within the bounds. -/
def Value.intWithin? (least greatest : Int) : Value → Option Int
  | .number l => l.int?.filter fun n => least ≤ n ∧ n ≤ greatest
  | _ => none

/-- Decodes a signed 32-bit integer. -/
def Value.int32? (v : Value) : Option Int32 :=
  (v.intWithin? (-2147483648) 2147483647).map Int32.ofInt

/-- Decodes an unsigned 32-bit integer. -/
def Value.uint32? (v : Value) : Option UInt32 :=
  (v.intWithin? 0 4294967295).map fun n => n.toNat.toUInt32

/-- Decodes an unsigned 64-bit integer. -/
def Value.uint64? (v : Value) : Option UInt64 :=
  (v.intWithin? 0 18446744073709551615).map fun n => n.toNat.toUInt64

/-! ## Decoding floating-point numbers -/

/-- Appends digits to `n` as long as the result fits 64 bits. Returns the number and the remaining
digits. -/
def appendDigits (n : Nat) : List Char → Nat × List Char
  | [] => (n, [])
  | c :: rest =>
    let next := 10 * n + digitValue c
    if next ≤ 18446744073709551615 then appendDigits next rest else (n, c :: rest)

/-- The greatest power of ten that is applied in one step. -/
def greatestPower : Nat := 308

/-- A power of ten as a 64-bit number. -/
def powerOfTen (n : Nat) : Double := .ofRatio false (10 ^ n) 1

/-- `x * 10 ^ exponent` for an exponent within one step; `none` if the result is infinite. -/
def shift (x : Double) (exponent : Int) : Option Double :=
  let power := powerOfTen exponent.natAbs
  if exponent < 0 then some (x.div power)
  else if (x.mul power).isFinite then some (x.mul power)
  else none

/-- `x * 10 ^ exponent`; `none` if the result is infinite. A large negative exponent is applied in
at most `steps` steps of `greatestPower`; two steps reduce every 64-bit number to zero. -/
def scale (steps : Nat) (x : Double) (exponent : Int) : Option Double :=
  if exponent.natAbs ≤ greatestPower then shift x exponent
  else if x.magnitude = 0 then some x
  else if 0 ≤ exponent then none
  else match steps with
    | 0 => some x
    | steps + 1 => scale steps (x.div (powerOfTen greatestPower)) (exponent + greatestPower)

/-- The value of a literal in double precision; `none` if it is out of range. -/
def Literal.double? (l : Literal) : Option Double :=
  let (n, dropped) := appendDigits 0 l.whole
  let (n, unread) := appendDigits n l.fraction
  let exponent : Int := l.exponent.getD 0 + dropped.length
    - (l.fraction.length - unread.length : Nat)
  (scale 2 (.ofRatio false n 1) exponent).map fun x => if l.negative then x.neg else x

/-- The integer of a literal, if it fits a signed or an unsigned 64-bit integer. -/
def Literal.int64? (l : Literal) : Option Int :=
  l.int?.filter fun n => -9223372036854775808 ≤ n ∧ n ≤ 18446744073709551615

/-- Decodes a literal: 64-bit integers are rounded directly to the format, all other literals
through double precision. -/
def Literal.floating? (f : Format) (l : Literal) : Option (Floating f) :=
  match l.int64? with
  | some n => some (.ofRatio (n < 0) n.natAbs 1)
  | none => l.double?.map (·.convert f)

/-- Decodes a floating-point number. -/
def Value.floating? (f : Format) : Value → Option (Floating f)
  | .number l => l.floating? f
  | _ => none

end Beatmap.Json
