import Beatmap.Number.Decimal

/-!
# Shortest decimals

`Floating.shortest` is the decimal printed for a finite number: among the decimals that read back as
the number it has the fewest digits, and among those it is nearest to the exact value, ties to even.

The search proceeds from coarse decimal grids to fine ones. On each grid only the two neighbours of
the value are candidates, and a candidate is accepted only if it reads back as the number, so
`toFloating_shortest` holds by construction. Seventeen digits always suffice; if no grid had a
candidate, the exact binary expansion would be printed.
-/

namespace Beatmap.Number

/-- The number of digits of a number; zero for zero. -/
def digitCount (n : Nat) : Nat := if n = 0 then 0 else (Nat.toDigits 10 n).length

/-- The exponent of the leading digit of the positive quotient `num / den`. -/
def leadingExponent (num den : Nat) : Int :=
  if den ≤ num then (digitCount (num / den) : Int) - 1 else -(digitCount ((den - 1) / num) : Int)

/-- Moves at most `bound` trailing zeros of the digits to the exponent. -/
def stripZerosUpTo : Nat → Nat → Int → Nat × Int
  | 0, digits, exponent => (digits, exponent)
  | bound + 1, digits, exponent =>
    if digits ≠ 0 ∧ digits % 10 = 0 then stripZerosUpTo bound (digits / 10) (exponent + 1)
    else (digits, exponent)

/-- Moves all trailing zeros of the digits to the exponent. A number has fewer trailing zeros than
its value. -/
def stripZeros (digits : Nat) (exponent : Int) : Nat × Int := stripZerosUpTo digits digits exponent

/-- The multiples of `10 ^ exponent` next to `num / den`, the nearer one first, ties to even. -/
def gridNeighbours (num den : Nat) (exponent : Int) : List Nat :=
  let num' := num * 10 ^ (-exponent).toNat
  let den' := den * 10 ^ exponent.toNat
  let below := num' / den'
  if roundHalfEven num' den' = below then [below, below + 1] else [below + 1, below]

/-- The nearest neighbour on the grid of `10 ^ exponent` that reads back as the magnitude `m`. -/
def hit? (f : Format) (m : Nat) (exponent : Int) : Option (Nat × Int) :=
  ((gridNeighbours (units f m) (2 ^ f.scale) exponent).map (stripZeros · exponent)).find?
    fun d => nearestDecimal f d.1 d.2 = m

/-- The number of digits that distinguishes all 64-bit numbers. -/
def mostDigits : Nat := 17

/-- The digits and the exponent of a finite magnitude. -/
def shortestDigits (f : Format) (m : Nat) : Nat × Int :=
  if m = 0 then (0, 0)
  else
    let leading := leadingExponent (units f m) (2 ^ f.scale)
    let grids := (List.range mostDigits).map fun (n : Nat) => leading - (n : Int)
    (grids.findSome? (hit? f m)).getD (units f m * 5 ^ f.scale, -(f.scale : Int))

/-- The decimal printed for a finite number. -/
def Floating.shortest {f : Format} (x : Floating f) : Decimal :=
  let (digits, exponent) := shortestDigits f x.magnitude
  ⟨x.negative, digits, exponent⟩

/-! ## Correctness of the search -/

theorem nearestDecimal_of_hit {f : Format} {m : Nat} {exponent : Int} {d : Nat × Int}
    (h : hit? f m exponent = some d) : nearestDecimal f d.1 d.2 = m := by
  simpa using List.find?_some h

theorem units_pos {f : Format} {m : Nat} (h : m ≠ 0) : 0 < units f m := by
  have hm : 2 ^ f.fractionBits * (m / 2 ^ f.fractionBits) + m % 2 ^ f.fractionBits = m :=
    Nat.div_add_mod ..
  by_cases he : m / 2 ^ f.fractionBits = 0
  · rw [he] at hm
    simp only [units, he, if_true]
    omega
  · simp only [units, he, if_false]
    exact Nat.mul_pos (Nat.add_pos_left (Nat.two_pow_pos _) _) (Nat.two_pow_pos _)

/-- The exact expansion of a finite magnitude, from `1 / 2 = 5 / 10`. -/
theorem nearestDecimal_expansion {f : Format} {m : Nat} (h₀ : m ≠ 0) (h : m < f.infinity) :
    nearestDecimal f (units f m * 5 ^ f.scale) (-(f.scale : Int)) = m := by
  have hne : units f m * 5 ^ f.scale ≠ 0 :=
    Nat.ne_of_gt (Nat.mul_pos (units_pos h₀) (Nat.pow_pos (by decide)))
  unfold nearestDecimal
  rw [if_neg hne]
  cases hs : f.scale with
  | zero =>
    have hn := nearest_units h
    have := Nat.two_pow_pos (f.exponentBits - 1)
    rw [hs] at hn
    rw [show (-((0 : Nat) : Int)) = Int.ofNat 0 from rfl, Nat.pow_zero, Nat.mul_one]
    simpa [Nat.not_le.mpr this] using hn
  | succ s =>
    have hle : 2 ^ (2 * (s + 1)) ≤ units f m * 5 ^ (s + 1) := by
      rw [Nat.pow_mul]
      exact Nat.le_trans (Nat.pow_le_pow_left (by decide) _)
        (Nat.le_mul_of_pos_left _ (units_pos h₀))
    rw [hs] at hne
    have hlog := (Nat.le_log2 hne).mpr hle
    have h10 : (10 : Nat) ^ (s + 1) = 2 ^ (s + 1) * 5 ^ (s + 1) := by rw [← Nat.mul_pow]
    rw [show (-((s + 1 : Nat) : Int)) = Int.negSucc s from rfl]
    dsimp only
    rw [if_neg (by omega), h10, nearest_mul_mul (Nat.pow_pos (by decide)), ← hs, nearest_units h]

theorem nearestDecimal_shortestDigits {f : Format} {m : Nat} (h : m < f.infinity) :
    nearestDecimal f (shortestDigits f m).1 (shortestDigits f m).2 = m := by
  unfold shortestDigits
  split
  · next h₀ =>
    subst h₀
    simp [nearestDecimal]
  · next h₀ =>
    dsimp only
    cases hf : List.findSome? (hit? f m) _ with
    | none => exact nearestDecimal_expansion h₀ h
    | some d =>
      obtain ⟨e, -, he⟩ := List.exists_of_findSome?_eq_some hf
      exact nearestDecimal_of_hit he

/-- The shortest decimal of a finite number reads back as that number. -/
theorem toFloating_shortest {f : Format} {x : Floating f} (h : x.isFinite = true) :
    x.shortest.toFloating f = x := by
  rw [Floating.isFinite_iff] at h
  cases x
  simp only [Floating.shortest, Decimal.toFloating, nearestDecimal_shortestDigits h]

end Beatmap.Number
