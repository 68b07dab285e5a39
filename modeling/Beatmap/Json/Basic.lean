import Beatmap.Number.Integer

/-!
# JSON values

Values preserve what the text says, independent of the type that they are decoded to. A number is
kept as a `Literal`, since integer and floating-point fields interpret the same digits differently.
Objects keep the order of their fields and may repeat a name; decoders decide whether that is an
error.
-/

namespace Beatmap.Json

/-- The white-space characters of JSON. -/
def isBlank (c : Char) : Bool := c == ' ' || c == '\n' || c == '\t' || c == '\r'

/-- A number literal: a sign, digits, optional digits after the point, and an optional exponent. -/
structure Literal where
  negative : Bool
  whole : List Char
  fraction : List Char := []
  exponent : Option Int := none
  deriving DecidableEq, Repr

/-- The content of a string; `none` for a string with an unpaired surrogate escape, which can be
skipped but not decoded. -/
abbrev Content := Option String

/-- A JSON value. -/
inductive Value where
  | null
  | bool (b : Bool)
  | number (literal : Literal)
  | string (content : Content)
  | array (items : List Value)
  | object (fields : List (Content × Value))
  deriving Repr

namespace Value

/-- A string value. -/
def text (s : String) : Value := .string (some s)

/-- The decimal digits of a number, most significant first. -/
def digitsOf (n : Nat) : List Char := Nat.toDigits 10 n

/-- An integer. -/
def int (n : Int) : Value := .number { negative := n < 0, whole := digitsOf n.natAbs }

/-- An array of encoded items. -/
def list {α : Type} (encode : α → Value) (items : List α) : Value := .array (items.map encode)

/-- An object with the given names and values. -/
def record (names : List String) (values : List Value) : Value :=
  .object ((names.map some).zip values)

end Value

end Beatmap.Json
