import Beatmap.Number.Power

/-!
# Decimal integers

An integer is written as an optional sign followed by one or more ASCII digits. `readInt32` fails on
values outside the range of `Int32`; it neither wraps nor clamps.
-/

namespace Beatmap.Number

/-- Whether `c` is an ASCII digit. -/
def isDigit (c : Char) : Bool := '0' ≤ c && c ≤ '9'

/-- The value of a digit. -/
def digitValue (c : Char) : Nat := c.toNat - '0'.toNat

/-- The value of a digit string, most significant digit first; zero for the empty string. -/
def digitsValue (digits : List Char) : Nat :=
  digits.foldl (fun n c => 10 * n + digitValue c) 0

/-- Parses a non-empty digit string. -/
def readNat (text : List Char) : Option Nat :=
  if text.isEmpty || !text.all isDigit then none else some (digitsValue text)

/-- Splits off an optional sign. Returns whether it is a minus, and the rest. -/
def readSign : List Char → Bool × List Char
  | '-' :: rest => (true, rest)
  | '+' :: rest => (false, rest)
  | rest => (false, rest)

/-- Parses an optional sign and digits. -/
def readInt (text : List Char) : Option Int :=
  let (negative, digits) := readSign text
  (readNat digits).map fun n => if negative then -(n : Int) else (n : Int)

/-- Whether an integer is in the range of `Int32`. -/
def fitsInt32 (n : Int) : Bool := -2147483648 ≤ n && n ≤ 2147483647

/-- Clamps an integer to the range of `Int32`. -/
def clampInt32 (n : Int) : Int32 := Int32.ofInt (max (-2147483648) (min n 2147483647))

/-- Saturating addition. -/
def saturatingAdd (a b : Int32) : Int32 := clampInt32 (a.toInt + b.toInt)

/-- Saturating subtraction. -/
def saturatingSub (a b : Int32) : Int32 := clampInt32 (a.toInt - b.toInt)

/-- Parses an integer in the range of `Int32`. -/
def readInt32 (text : List Char) : Option Int32 :=
  (readInt text).bind fun n => if fitsInt32 n then some (Int32.ofInt n) else none

/-- Folding over digits from `n` prepends the digits of `n`. -/
theorem foldl_digits (digits : List Char) (n : Nat) :
    digits.foldl (fun n c => 10 * n + digitValue c) n
      = n * 10 ^ digits.length + digitsValue digits := by
  induction digits generalizing n with
  | nil => simp [digitsValue]
  | cons c r ih =>
    rw [digitsValue, List.foldl_cons, List.foldl_cons, ih, ih (10 * 0 + digitValue c),
      List.length_cons, Nat.pow_succ, Nat.add_mul, Nat.mul_comm 10 n, Nat.mul_assoc,
      Nat.mul_comm (10 ^ r.length), Nat.mul_zero, Nat.zero_add, Nat.add_assoc]

theorem digitsValue_append (a b : List Char) :
    digitsValue (a ++ b) = digitsValue a * 10 ^ b.length + digitsValue b := by
  rw [digitsValue, List.foldl_append, foldl_digits]
  rfl

/-- The value of a parsed 32-bit integer is the integer that was written. -/
theorem toInt_of_readInt32 {text : List Char} {n : Int32} (h : readInt32 text = some n) :
    readInt text = some n.toInt := by
  rw [readInt32, Option.bind_eq_some_iff] at h
  obtain ⟨k, hk, h⟩ := h
  split at h
  · next hf =>
    simp only [fitsInt32, Bool.and_eq_true, decide_eq_true_eq] at hf
    rw [hk, ← Option.some.inj h, Int32.toInt_ofInt_of_le hf.1 (by omega)]
  · simp at h

theorem toInt_clampInt32 (n : Int) :
    (clampInt32 n).toInt = max (-2147483648) (min n 2147483647) :=
  Int32.toInt_ofInt_of_le (by omega) (by omega)

@[simp]
theorem toInt_saturatingAdd (a b : Int32) :
    (saturatingAdd a b).toInt = max (-2147483648) (min (a.toInt + b.toInt) 2147483647) :=
  toInt_clampInt32 _

@[simp]
theorem toInt_saturatingSub (a b : Int32) :
    (saturatingSub a b).toInt = max (-2147483648) (min (a.toInt - b.toInt) 2147483647) :=
  toInt_clampInt32 _

end Beatmap.Number
