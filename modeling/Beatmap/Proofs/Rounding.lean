import Beatmap.Number.Decimal

/-!
# Rounding of natural numbers

A natural number `n` has `log2 n + 1` binary places, of which a format stores the first
`fractionBits + 1`, rounded (`significand`). Numbers with at most that many places are represented
exactly (`whole_of_lt`), and greater ones never round below the power of two of their first place
(`le_whole`). Rounding overflows to infinity exactly from half a last place below the first power of
two that exceeds the exponent range (`nearest_lt_infinity_iff`).

All statements are for an arbitrary format, so that no large powers of two are evaluated.
-/

namespace Beatmap.Number

/-! ## Rounding a quotient -/

theorem div_le_roundHalfEven (num den : Nat) : num / den ≤ roundHalfEven num den := by
  unfold roundHalfEven
  dsimp only
  split
  next => exact Nat.le_refl _
  next => split <;> omega

theorem roundHalfEven_le (num den : Nat) : roundHalfEven num den ≤ num / den + 1 := by
  unfold roundHalfEven
  dsimp only
  split
  next => omega
  next => split <;> omega

/-- Values from half below an even number on round up to it. -/
theorem le_roundHalfEven_iff {num den a : Nat} (hden : 0 < den) (heven : a % 2 = 0) :
    a ≤ roundHalfEven num den ↔ 2 * (a * den) ≤ 2 * num + den := by
  have hnum : num / den * den + num % den = num := Nat.div_add_mod' num den
  have hrest : num % den < den := Nat.mod_lt _ hden
  have hlow := div_le_roundHalfEven num den
  have hhigh := roundHalfEven_le num den
  rcases Nat.lt_trichotomy (num / den + 1) a with hlt | heq | hgt
  · have hfar : (num / den + 2) * den ≤ a * den := Nat.mul_le_mul_right den hlt
    rw [Nat.add_mul] at hfar
    omega
  · -- The number is next to the quotient, which is odd.
    rw [← heq, Nat.add_mul, Nat.one_mul]
    unfold roundHalfEven
    dsimp only
    split
    next => omega
    next => split <;> omega
  · have hnear : a * den ≤ num / den * den := Nat.mul_le_mul_right den (by omega)
    omega

/-! ## Places -/

namespace Format

/-- The number of binary places below the last place of the number one. -/
def depth (f : Format) : Nat := 2 ^ (f.exponentBits - 1) - 2

theorem scale_eq (f : Format) : f.scale = f.depth + f.fractionBits := rfl

theorem infinity_eq {f : Format} (h : 1 < f.exponentBits) :
    f.infinity = (2 * f.depth + 3) * 2 ^ f.fractionBits := by
  obtain ⟨bits, hbits⟩ := Nat.exists_eq_add_of_lt h
  have hpositive : 0 < 2 ^ bits := Nat.two_pow_pos _
  have hdepth : 2 ^ f.exponentBits - 1 = 2 * f.depth + 3 := by
    rw [depth, hbits, Nat.add_sub_cancel, Nat.pow_succ, Nat.add_comm 1, Nat.pow_succ]
    omega
  rw [infinity, hdepth]

end Format

variable {f : Format} {n : Nat}

/-- The first `fractionBits + 1` places of a number, rounded. -/
def significand (f : Format) (n : Nat) : Nat := roundHalfEven (n * 2 ^ f.fractionBits) (2 ^ n.log2)

theorem le_significand (hn : n ≠ 0) : 2 ^ f.fractionBits ≤ significand f n := by
  refine Nat.le_trans ?_ (div_le_roundHalfEven _ _)
  rw [Nat.le_div_iff_mul_le (Nat.two_pow_pos _), Nat.mul_comm]
  exact Nat.mul_le_mul_right _ (Nat.log2_self_le hn)

theorem significand_le (f : Format) (n : Nat) : significand f n ≤ 2 * 2 ^ f.fractionBits := by
  refine Nat.le_trans (roundHalfEven_le _ _) ?_
  rw [Nat.add_one_le_iff, Nat.div_lt_iff_lt_mul (Nat.two_pow_pos _), Nat.mul_right_comm,
    Nat.mul_comm 2, ← Nat.pow_succ]
  exact Nat.mul_lt_mul_of_pos_right Nat.lt_log2_self (Nat.two_pow_pos _)

/-- A number with at most `fractionBits + 1` places is its own significand, padded with zeros. -/
theorem significand_of_lt (hn : n ≠ 0) (h : n < 2 * 2 ^ f.fractionBits) :
    significand f n * 2 ^ n.log2 = n * 2 ^ f.fractionBits := by
  have hplaces : n.log2 ≤ f.fractionBits := by
    rw [Nat.mul_comm, ← Nat.pow_succ, ← Nat.log2_lt hn] at h
    omega
  have hsplit : n * 2 ^ f.fractionBits = n * 2 ^ (f.fractionBits - n.log2) * 2 ^ n.log2 := by
    rw [Nat.mul_assoc, ← Nat.pow_add, Nat.sub_add_cancel hplaces]
  rw [significand, hsplit, roundHalfEven_mul_right (Nat.two_pow_pos _)]

/-- The magnitude nearest to a natural number, in terms of its places. -/
theorem nearest_whole (hn : n ≠ 0) :
    nearest f n 1
      = min ((n.log2 + f.depth) * 2 ^ f.fractionBits + significand f n) f.infinity := by
  have hlog : (n * 2 ^ f.scale).log2 = n.log2 + f.depth + f.fractionBits := by
    have hpositive : 0 < 2 ^ f.scale := Nat.two_pow_pos _
    rw [Nat.log2_eq_iff (Nat.mul_ne_zero hn (Nat.ne_of_gt hpositive)), Nat.add_assoc, ← f.scale_eq,
      Nat.add_right_comm, Nat.pow_add, Nat.pow_add]
    exact ⟨Nat.mul_le_mul_right _ (Nat.log2_self_le hn),
      Nat.mul_lt_mul_of_pos_right Nat.lt_log2_self hpositive⟩
  have hround : roundHalfEven (n * 2 ^ f.scale) (1 * 2 ^ (n.log2 + f.depth)) = significand f n := by
    rw [Nat.one_mul, f.scale_eq, Nat.add_comm f.depth, Nat.pow_add, Nat.pow_add, ← Nat.mul_assoc,
      roundHalfEven_mul_mul (Nat.two_pow_pos _), significand]
  simp only [nearest, Nat.div_one, hlog, Nat.add_sub_cancel, hround]

/-- The value of a magnitude composed of a place and a significand, with or without a carry. -/
theorem units_place (place : Nat) {q : Nat} (hlow : 2 ^ f.fractionBits ≤ q)
    (hhigh : q ≤ 2 * 2 ^ f.fractionBits) :
    units f (place * 2 ^ f.fractionBits + q) = q * 2 ^ place := by
  have hpositive : 0 < 2 ^ f.fractionBits := Nat.two_pow_pos _
  by_cases hcarry : q = 2 * 2 ^ f.fractionBits
  · have hsum : place * 2 ^ f.fractionBits + q = (place + 2) * 2 ^ f.fractionBits := by
      rw [Nat.add_mul, hcarry]
    simp only [units, hsum, Nat.mul_div_cancel _ hpositive, Nat.mul_mod_left, Nat.add_zero]
    rw [if_neg (by omega), hcarry]
    show 2 ^ f.fractionBits * 2 ^ (place + 1) = _
    rw [Nat.pow_succ, Nat.mul_comm 2, Nat.mul_right_comm, Nat.mul_assoc]
  · have hsum : place * 2 ^ f.fractionBits + q
        = (q - 2 ^ f.fractionBits) + (place + 1) * 2 ^ f.fractionBits := by
      rw [Nat.add_mul]
      omega
    have hfraction : q - 2 ^ f.fractionBits < 2 ^ f.fractionBits := by omega
    simp only [units, hsum, Nat.add_mul_div_right _ _ hpositive, Nat.add_mul_mod_self_right,
      Nat.div_eq_of_lt hfraction, Nat.mod_eq_of_lt hfraction]
    rw [if_neg (by omega), Nat.add_sub_cancel' hlow]
    congr 2
    omega

theorem nearest_zero (f : Format) : nearest f 0 1 = 0 := by
  simp [nearest, roundHalfEven]

/-! ## Integer parts -/

/-- The integer part of the number that a natural number rounds to. -/
def whole (f : Format) (n : Nat) : Nat := units f (nearest f n 1) / 2 ^ f.scale

theorem whole_eq (hn : n ≠ 0) (h : nearest f n 1 < f.infinity) :
    whole f n = significand f n * 2 ^ n.log2 / 2 ^ f.fractionBits := by
  rw [nearest_whole hn] at h
  rw [whole, nearest_whole hn, Nat.min_eq_left (by omega),
    units_place _ (le_significand hn) (significand_le f n), f.scale_eq, Nat.add_comm f.depth,
    Nat.pow_add, Nat.pow_add, ← Nat.mul_assoc, Nat.mul_div_mul_right _ _ (Nat.two_pow_pos _)]

/-- A number with at most `fractionBits + 1` places is represented exactly. -/
theorem whole_of_lt (hfinite : nearest f n 1 < f.infinity) (h : n < 2 * 2 ^ f.fractionBits) :
    whole f n = n := by
  by_cases hn : n = 0
  · simp [whole, hn, nearest_zero, units]
  rw [whole_eq hn hfinite, significand_of_lt hn h, Nat.mul_div_cancel _ (Nat.two_pow_pos _)]

/-- Rounding preserves the first place of a number. -/
theorem le_whole (hn : n ≠ 0) (hfinite : nearest f n 1 < f.infinity) : 2 ^ n.log2 ≤ whole f n := by
  rw [whole_eq hn hfinite, Nat.le_div_iff_mul_le (Nat.two_pow_pos _), Nat.mul_comm]
  exact Nat.mul_le_mul_right _ (le_significand hn)

/-! ## Overflow -/

/-- Rounding carries into the next power of two from half a last place below it, where `k` places
are dropped. -/
theorem carries_iff {k : Nat} (h : n.log2 = f.fractionBits + 1 + k) :
    2 * 2 ^ f.fractionBits ≤ significand f n ↔ 2 * 2 ^ n.log2 ≤ n + 2 ^ k := by
  have hplaces : 2 ^ n.log2 = 2 * 2 ^ f.fractionBits * 2 ^ k := by
    rw [h, Nat.pow_add, Nat.pow_succ, Nat.mul_comm 2]
  have hleft : 2 * (2 * 2 ^ f.fractionBits * 2 ^ n.log2)
      = 2 * 2 ^ f.fractionBits * (2 * 2 ^ n.log2) := Nat.mul_left_comm ..
  have hright : 2 * (n * 2 ^ f.fractionBits) + 2 ^ n.log2
      = 2 * 2 ^ f.fractionBits * (n + 2 ^ k) := by
    rw [hplaces, Nat.mul_add, Nat.mul_assoc 2, Nat.mul_assoc 2, Nat.mul_comm n]
  rw [significand, le_roundHalfEven_iff (Nat.two_pow_pos _) (by omega), hleft, hright]
  exact Nat.mul_le_mul_left_iff (Nat.mul_pos (by omega) (Nat.two_pow_pos _))

/-- A number rounds to a finite magnitude exactly if it lies below the first power of two beyond the
exponent range by more than half a last place. -/
theorem nearest_lt_infinity_iff (hexponent : 1 < f.exponentBits)
    (hroom : f.fractionBits ≤ f.depth) :
    nearest f n 1 < f.infinity ↔ n + 2 ^ (f.depth - f.fractionBits) < 2 ^ (f.depth + 2) := by
  have hpositive : 0 < 2 ^ f.fractionBits := Nat.two_pow_pos _
  have hinfinity := Format.infinity_eq hexponent
  have htop : 2 ^ (f.depth + 2) = 2 * 2 ^ (f.depth + 1) := by rw [Nat.pow_succ, Nat.mul_comm]
  have hplace : 2 ^ (f.depth - f.fractionBits) ≤ 2 ^ (f.depth + 1) :=
    Nat.pow_le_pow_right (by omega) (by omega)
  have hleft : 0 < 2 ^ (f.depth - f.fractionBits) := Nat.two_pow_pos _
  by_cases hn : n = 0
  · have hsome : 0 < f.infinity := by
      rw [hinfinity]
      exact Nat.mul_pos (by omega) hpositive
    rw [hn, nearest_zero]
    omega
  have hlow : 2 ^ f.fractionBits ≤ significand f n := le_significand hn
  have hhigh := significand_le f n
  have hself := Nat.log2_self_le hn
  have hnext : n < 2 ^ (n.log2 + 1) := Nat.lt_log2_self
  have hiff : nearest f n 1 < f.infinity
      ↔ (n.log2 + f.depth) * 2 ^ f.fractionBits + significand f n
        < 2 * f.depth * 2 ^ f.fractionBits + 3 * 2 ^ f.fractionBits := by
    rw [nearest_whole hn, ← Nat.add_mul, ← hinfinity]
    omega
  rw [hiff]
  rcases Nat.lt_trichotomy n.log2 (f.depth + 1) with hless | hlast | hmore
  · have hsmall : n < 2 ^ (f.depth + 1) :=
      Nat.lt_of_lt_of_le hnext (Nat.pow_le_pow_right (by omega) hless)
    have hplaces : (n.log2 + f.depth) * 2 ^ f.fractionBits ≤ 2 * f.depth * 2 ^ f.fractionBits :=
      Nat.mul_le_mul_right _ (by omega)
    omega
  · -- The last power that the format can hold: the number is finite unless its significand carries.
    have hcarries : 2 * 2 ^ f.fractionBits ≤ significand f n
        ↔ 2 * 2 ^ n.log2 ≤ n + 2 ^ (f.depth - f.fractionBits) := carries_iff (by omega)
    have hplaces : (n.log2 + f.depth) * 2 ^ f.fractionBits
        = 2 * f.depth * 2 ^ f.fractionBits + 2 ^ f.fractionBits := by
      rw [hlast, ← Nat.succ_mul]
      congr 1
      omega
    rw [hplaces]
    rw [hlast] at hcarries
    omega
  · have hlarge : 2 ^ (f.depth + 2) ≤ n :=
      Nat.le_trans (Nat.pow_le_pow_right (by omega) hmore) hself
    have hplaces : (2 * f.depth + 2) * 2 ^ f.fractionBits
        ≤ (n.log2 + f.depth) * 2 ^ f.fractionBits :=
      Nat.mul_le_mul_right _ (by omega)
    rw [Nat.add_mul] at hplaces
    omega

/-- Numbers with at most `fractionBits + 1` places round to finite magnitudes. -/
theorem nearest_lt_infinity_of_lt (hexponent : 1 < f.exponentBits)
    (hroom : f.fractionBits ≤ f.depth)
    (h : n < 2 * 2 ^ f.fractionBits) : nearest f n 1 < f.infinity := by
  have hfraction : 2 ^ f.fractionBits ≤ 2 ^ f.depth := Nat.pow_le_pow_right (by omega) hroom
  have hlast : 2 ^ (f.depth - f.fractionBits) ≤ 2 ^ f.depth :=
    Nat.pow_le_pow_right (by omega) (Nat.sub_le _ _)
  rw [nearest_lt_infinity_iff hexponent hroom, Nat.pow_succ, Nat.pow_succ]
  omega

end Beatmap.Number
