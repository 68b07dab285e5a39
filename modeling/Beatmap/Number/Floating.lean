import Beatmap.Number.Power

/-!
# Binary floating-point numbers

A number consists of a sign and a magnitude. The magnitude is the bit pattern without the sign, as a
natural number: magnitudes below `Format.infinity` are finite, that magnitude itself is infinity,
and those above are NaNs. Consecutive magnitudes are consecutive representable values, so the order
of magnitudes is the order of values and a carry out of the fraction needs no special case.

A finite value is a multiple of the least positive value `2 ^ (-scale)`; `units` is its factor.
Arithmetic is exact arithmetic on natural numbers followed by one rounding, `nearest`, which maps a
quotient to the nearest representable value, ties to even. Representable values are fixed points of
the rounding (`nearest_units`).
-/

namespace Beatmap.Number

/-- A format, given by its numbers of fraction and exponent bits. -/
structure Format where
  fractionBits : Nat
  exponentBits : Nat
  deriving DecidableEq

namespace Format

/-- 32 bits: 1 sign bit, 8 exponent bits, 23 fraction bits. -/
def single : Format := ⟨23, 8⟩

/-- 64 bits: 1 sign bit, 11 exponent bits, 52 fraction bits. -/
def double : Format := ⟨52, 11⟩

/-- The magnitude of infinity: all exponent bits set, no fraction bit set. -/
def infinity (f : Format) : Nat := (2 ^ f.exponentBits - 1) * 2 ^ f.fractionBits

/-- The number of magnitudes. -/
def limit (f : Format) : Nat := 2 ^ f.exponentBits * 2 ^ f.fractionBits

/-- The least positive value is `2 ^ (-scale)`. -/
def scale (f : Format) : Nat := 2 ^ (f.exponentBits - 1) - 2 + f.fractionBits

theorem infinity_lt_limit (f : Format) : f.infinity < f.limit := by
  have h₁ : 0 < 2 ^ f.exponentBits := Nat.two_pow_pos _
  have h₂ : 0 < 2 ^ f.fractionBits := Nat.two_pow_pos _
  exact Nat.mul_lt_mul_of_pos_right (by omega) h₂

end Format

/-- The natural number nearest to `num / den`, ties to even. -/
def roundHalfEven (num den : Nat) : Nat :=
  let quotient := num / den
  let rest := num % den
  if 2 * rest < den then quotient
  else if den < 2 * rest then quotient + 1
  else quotient + quotient % 2

/-- The finite magnitude `m` as a multiple of the least positive value. -/
def units (f : Format) (m : Nat) : Nat :=
  let exponent := m / 2 ^ f.fractionBits
  let fraction := m % 2 ^ f.fractionBits
  if exponent = 0 then fraction else (2 ^ f.fractionBits + fraction) * 2 ^ (exponent - 1)

/-- The magnitude nearest to `num / den`, or infinity on overflow. The quotient is taken in
multiples of the least positive value; `shift` is the number of its low bits that exceed the
precision. -/
def nearest (f : Format) (num den : Nat) : Nat :=
  let scaled := num * 2 ^ f.scale
  let shift := (scaled / den).log2 - f.fractionBits
  min (shift * 2 ^ f.fractionBits + roundHalfEven scaled (den * 2 ^ shift)) f.infinity

theorem nearest_le_infinity (f : Format) (num den : Nat) : nearest f num den ≤ f.infinity :=
  Nat.min_le_right _ _

/-- A floating-point number of a format. -/
structure Floating (f : Format) where
  negative : Bool
  magnitude : Nat
  magnitude_lt : magnitude < f.limit
  deriving DecidableEq

/-- 32-bit numbers. -/
abbrev Single := Floating .single

/-- 64-bit numbers. -/
abbrev Double := Floating .double

namespace Floating

variable {f : Format}

/-- The number nearest to a signed quotient. -/
def ofRatio (negative : Bool) (num den : Nat) : Floating f where
  negative := negative
  magnitude := nearest f num den
  magnitude_lt := Nat.lt_of_le_of_lt (nearest_le_infinity f num den) f.infinity_lt_limit

/-- Signed infinity. -/
def infinite (negative : Bool) : Floating f where
  negative := negative
  magnitude := f.infinity
  magnitude_lt := f.infinity_lt_limit

/-- Signed zero. -/
def zero (negative : Bool) : Floating f where
  negative := negative
  magnitude := 0
  magnitude_lt := Nat.mul_pos (Nat.two_pow_pos _) (Nat.two_pow_pos _)

/-- The number of a bit pattern whose highest bit is the sign. -/
def ofBits (bits : Nat) : Floating f where
  negative := bits / f.limit % 2 = 1
  magnitude := bits % f.limit
  magnitude_lt := Nat.mod_lt _ (Nat.mul_pos (Nat.two_pow_pos _) (Nat.two_pow_pos _))

/-- The bit pattern of a number. -/
def toBits (x : Floating f) : Nat := (if x.negative then f.limit else 0) + x.magnitude

/-- The quiet NaN. -/
def notANumber (negative : Bool) : Floating f :=
  ofBits ((if negative then f.limit else 0) + f.infinity + 2 ^ (f.fractionBits - 1))

/-- Whether the number is neither infinite nor NaN. -/
def isFinite (x : Floating f) : Bool := x.magnitude < f.infinity

/-- Whether the number is NaN. -/
def isNaN (x : Floating f) : Bool := f.infinity < x.magnitude

/-- Whether the number is greater than zero. -/
def isPositive (x : Floating f) : Bool := !x.negative && 0 < x.magnitude && !x.isNaN

/-- Whether the number is less than zero. -/
def isNegative (x : Floating f) : Bool := x.negative && 0 < x.magnitude && !x.isNaN

/-- The absolute value of a finite number as a multiple of the least positive value. -/
def unitCount (x : Floating f) : Nat := units f x.magnitude

/-- The integer part of a finite number, rounded toward zero. -/
def truncate (x : Floating f) : Int :=
  let whole := x.unitCount / 2 ^ f.scale
  if x.negative then -(whole : Int) else (whole : Int)

/-- The quotient of a positive natural number and a number that is neither zero nor NaN. -/
def natDiv (n : Nat) (x : Floating f) : Floating f :=
  if x.isFinite then ofRatio x.negative (n * 2 ^ f.scale) x.unitCount else zero x.negative

/-- The product of two finite numbers. -/
def mul (x y : Floating f) : Floating f :=
  ofRatio (x.negative != y.negative) (x.unitCount * y.unitCount) (2 ^ (2 * f.scale))

/-- The quotient of two finite numbers, where the divisor is not zero. -/
def div (x y : Floating f) : Floating f :=
  ofRatio (x.negative != y.negative) x.unitCount y.unitCount

/-- The number of another format nearest to a finite number. -/
def convert (g : Format) (x : Floating f) : Floating g :=
  ofRatio x.negative x.unitCount (2 ^ f.scale)

/-- The negated number. -/
def neg (x : Floating f) : Floating f := { x with negative := !x.negative }

theorem isFinite_iff {x : Floating f} : x.isFinite = true ↔ x.magnitude < f.infinity := by
  simp [isFinite]

end Floating

/-! ## Rounding representable values -/

theorem roundHalfEven_mul_right {n c : Nat} (h : 0 < c) : roundHalfEven (n * c) c = n := by
  simp [roundHalfEven, Nat.mul_div_cancel n h, h]

/-- Rounding depends only on the value of the quotient. -/
theorem roundHalfEven_mul_mul {num den c : Nat} (h : 0 < c) :
    roundHalfEven (num * c) (den * c) = roundHalfEven num den := by
  have h₁ : 2 * (num * c % (den * c)) = 2 * (num % den) * c := by
    rw [Nat.mul_mod_mul_right, Nat.mul_assoc]
  simp only [roundHalfEven, Nat.mul_div_mul_right num den h, h₁, Nat.mul_lt_mul_right h]

/-- The nearest magnitude depends only on the value of the quotient. -/
theorem nearest_mul_mul {f : Format} {num den c : Nat} (h : 0 < c) :
    nearest f (num * c) (den * c) = nearest f num den := by
  have h₁ : num * c * 2 ^ f.scale = num * 2 ^ f.scale * c := Nat.mul_right_comm ..
  have h₂ : ∀ s, den * c * 2 ^ s = den * 2 ^ s * c := fun s => Nat.mul_right_comm ..
  simp only [nearest, h₁, Nat.mul_div_mul_right _ _ h, h₂, roundHalfEven_mul_mul h]

/-- A finite magnitude is the nearest one to its own value. -/
theorem nearest_units {f : Format} {m : Nat} (h : m < f.infinity) :
    nearest f (units f m) (2 ^ f.scale) = m := by
  have hs : 0 < 2 ^ f.scale := Nat.two_pow_pos _
  have hp : 0 < 2 ^ f.fractionBits := Nat.two_pow_pos _
  have hm : 2 ^ f.fractionBits * (m / 2 ^ f.fractionBits) + m % 2 ^ f.fractionBits = m :=
    Nat.div_add_mod ..
  have hr : m % 2 ^ f.fractionBits < 2 ^ f.fractionBits := Nat.mod_lt _ hp
  simp only [nearest, Nat.mul_div_cancel _ hs]
  by_cases he : m / 2 ^ f.fractionBits = 0
  · have hu : units f m = m % 2 ^ f.fractionBits := by simp [units, he]
    have hl : (units f m).log2 - f.fractionBits = 0 := by
      rw [hu]
      by_cases h0 : m % 2 ^ f.fractionBits = 0
      · simp [h0]
      · have := (Nat.log2_lt h0).mpr hr
        omega
    rw [hl, Nat.pow_zero, Nat.mul_one, roundHalfEven_mul_right hs, hu]
    rw [he, Nat.mul_zero] at hm
    omega
  · have hu : units f m
        = (2 ^ f.fractionBits + m % 2 ^ f.fractionBits) * 2 ^ (m / 2 ^ f.fractionBits - 1) := by
      simp [units, he]
    have hl : (units f m).log2 - f.fractionBits = m / 2 ^ f.fractionBits - 1 := by
      have : (units f m).log2 = f.fractionBits + (m / 2 ^ f.fractionBits - 1) := by
        have hne : units f m ≠ 0 := by
          rw [hu]; exact Nat.ne_of_gt (Nat.mul_pos (Nat.add_pos_left hp _) (Nat.two_pow_pos _))
        rw [Nat.log2_eq_iff hne, hu]
        constructor
        · rw [Nat.pow_add]
          exact Nat.mul_le_mul_right _ (Nat.le_add_right _ _)
        · rw [Nat.add_right_comm, Nat.pow_add]
          exact Nat.mul_lt_mul_of_pos_right (by rw [Nat.pow_succ]; omega) (Nat.two_pow_pos _)
      omega
    rw [hl, hu, Nat.mul_assoc, Nat.mul_comm (2 ^ (m / 2 ^ f.fractionBits - 1)),
      roundHalfEven_mul_right (Nat.mul_pos hs (Nat.two_pow_pos _))]
    have hk : (m / 2 ^ f.fractionBits - 1) * 2 ^ f.fractionBits + 2 ^ f.fractionBits
        = 2 ^ f.fractionBits * (m / 2 ^ f.fractionBits) := by
      rw [← Nat.succ_mul, Nat.succ_eq_add_one, Nat.sub_add_cancel (Nat.pos_of_ne_zero he),
        Nat.mul_comm]
    omega

end Beatmap.Number
