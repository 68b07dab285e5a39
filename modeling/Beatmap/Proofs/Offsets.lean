import Beatmap.Proofs.PointLines
import Beatmap.Proofs.Rounding

/-!
# Offsets of timing points

The offset of a timing point is parsed as a 64-bit floating-point number and then truncated and
clamped, whereas that of a hit object is parsed as an integer. `timingPoint_offset` shows that both
agree on integer literals: a literal that needs rounding lies outside of the range of `Int32` before
and after rounding, so clamping yields the same result (`clampInt32_truncate`). Literals that round
to infinity yield no timing point.
-/

namespace Beatmap

open Beatmap.Text Beatmap.Number

namespace Number

/-! ## Integer literals -/

/-- An optional sign followed by digits. -/
structure IsInteger (sign digits : List Char) : Prop where
  sign : sign = [] ∨ sign = ['+'] ∨ sign = ['-']
  someDigit : digits ≠ []
  digits : ∀ c ∈ digits, isDigit c = true

/-- A signed natural number. -/
def signed (negative : Bool) (n : Nat) : Int := if negative then -(n : Int) else n

theorem natAbs_signed (negative : Bool) (n : Nat) : (signed negative n).natAbs = n := by
  unfold signed
  split <;> omega

theorem ne_of_isDigit {c d : Char} (hc : isDigit c = true) (hd : isDigit d = false) : c ≠ d := by
  rintro rfl
  rw [hc] at hd
  cases hd

theorem lowerAscii_of_isDigit {c : Char} (h : isDigit c = true) : lowerAscii c = c := by
  simp only [isDigit, Bool.and_eq_true, decide_eq_true_eq] at h
  rw [lowerAscii, if_neg]
  intro hupper
  exact absurd (Char.le_trans hupper.1 h.2) (by decide)

theorem isExponentMark_of_isDigit {c : Char} (h : isDigit c = true) : isExponentMark c = false := by
  rw [isExponentMark, Bool.or_eq_false_iff, beq_eq_false_iff_ne, beq_eq_false_iff_ne]
  exact ⟨ne_of_isDigit h (by decide), ne_of_isDigit h (by decide)⟩

namespace IsInteger

variable {sign digits : List Char} (h : IsInteger sign digits)

include h

theorem not_mem_digits {c : Char} (hc : isDigit c = false) : c ∉ digits :=
  fun hmem => ne_of_isDigit (h.digits c hmem) hc rfl

theorem readSign_append : readSign (sign ++ digits) = (decide (sign = ['-']), digits) := by
  rcases h.sign with rfl | rfl | rfl
  · rw [List.nil_append]
    unfold readSign
    split
    next rest => exact absurd (List.mem_cons_self ..) (h.not_mem_digits (c := '-') (by decide))
    next rest => exact absurd (List.mem_cons_self ..) (h.not_mem_digits (c := '+') (by decide))
    next => rfl
  · rfl
  · rfl

theorem readNat_digits : readNat digits = some (digitsValue digits) := by
  have hall : digits.all isDigit = true := List.all_eq_true.mpr h.digits
  have hsome : digits.isEmpty = false := by simpa using h.someDigit
  rw [readNat, hall, hsome]
  rfl

theorem readInt_append :
    readInt (sign ++ digits) = some (signed (sign = ['-']) (digitsValue digits)) := by
  simp only [readInt, h.readSign_append, h.readNat_digits]
  rfl

/-- A digit string is parsed as a decimal without fraction and exponent. -/
theorem readUnsigned_digits (negative : Bool) :
    readUnsigned negative digits = some ⟨negative, digitsValue digits, 0⟩ := by
  have hmarks : ∀ c ∈ digits, (!isExponentMark c) = true := by
    intro c hc
    rw [isExponentMark_of_isDigit (h.digits c hc)]
    rfl
  have htake : digits.takeWhile (!isExponentMark ·) = digits :=
    List.takeWhile_eq_self_iff.mpr hmarks
  have hdrop : digits.dropWhile (!isExponentMark ·) = [] := List.dropWhile_eq_nil_iff.mpr hmarks
  have hpointed : readPointed digits = some (digitsValue digits, 0) := by
    rw [readPointed, cutFirst_eq_none_iff.mpr (h.not_mem_digits (by decide)), h.readNat_digits]
    rfl
  rw [readUnsigned, htake, hdrop, hpointed]
  rfl

theorem readFloating_append (f : Format) :
    readFloating f (sign ++ digits)
      = some (Decimal.toFloating f ⟨decide (sign = ['-']), digitsValue digits, 0⟩) := by
  have hlower : lowerAsciiText digits = digits :=
    (List.map_congr_left fun c hc => lowerAscii_of_isDigit (h.digits c hc)).trans (List.map_id _)
  have hword : ∀ word : List Char, 'n' ∈ word → lowerAsciiText digits ≠ word := by
    rintro word hn rfl
    exact h.not_mem_digits (by decide) (hlower ▸ hn)
  rw [readFloating, h.readSign_append]
  dsimp only
  rw [if_neg (not_or.mpr ⟨hword _ (by decide), hword _ (by decide)⟩), if_neg (hword _ (by decide)),
    h.readUnsigned_digits]
  rfl

end IsInteger

/-! ## Rounding and clamping -/

theorem nearestDecimal_whole (f : Format) (n : Nat) : nearestDecimal f n 0 = nearest f n 1 := by
  unfold nearestDecimal
  split
  next h => rw [h, nearest_zero]
  next =>
    show (if 2 ^ (f.exponentBits - 1) ≤ 3 * 0 then f.infinity else nearest f (n * 10 ^ 0) 1) = _
    have hpositive : 0 < 2 ^ (f.exponentBits - 1) := Nat.two_pow_pos _
    rw [if_neg (by omega), Nat.pow_zero, Nat.mul_one]

variable {f : Format} {negative : Bool} {n : Nat}

theorem isFinite_whole_iff :
    (Decimal.toFloating f ⟨negative, n, 0⟩).isFinite = true ↔ nearest f n 1 < f.infinity := by
  rw [Floating.isFinite_iff, ← nearestDecimal_whole]
  rfl

theorem truncate_whole :
    (Decimal.toFloating f ⟨negative, n, 0⟩).truncate = signed negative (whole f n) := by
  rw [whole, ← nearestDecimal_whole]
  rfl

/-- A literal that does not round to a finite number rounds to infinity. -/
theorem toFloating_of_not_finite {d : Decimal} (h : (Decimal.toFloating f d).isFinite = false) :
    Decimal.toFloating f d = .infinite d.negative := by
  have hleast : ¬(Decimal.toFloating f d).magnitude < f.infinity := by
    rw [← Floating.isFinite_iff, h]
    exact Bool.false_ne_true
  have hmost : (Decimal.toFloating f d).magnitude ≤ f.infinity := nearestDecimal_le_infinity ..
  have hmagnitude : (Decimal.toFloating f d).magnitude = f.infinity := by omega
  rw [Floating.infinite, Floating.mk.injEq]
  exact ⟨rfl, hmagnitude⟩

theorem clampInt32_toInt (k : Int32) : clampInt32 k.toInt = k := by
  have hlow := k.le_toInt
  have hhigh := k.toInt_lt
  rw [← Int32.toInt_inj, toInt_clampInt32]
  omega

theorem clampInt32_congr {a b : Int}
    (h : max (-2147483648) (min a 2147483647) = max (-2147483648) (min b 2147483647)) :
    clampInt32 a = clampInt32 b := congrArg Int32.ofInt h

/-- Rounding an integer to a format with at least 31 fraction bits does not change its clamped
value. -/
theorem clampInt32_truncate (hroom : 31 ≤ f.fractionBits)
    (h : (Decimal.toFloating f ⟨negative, n, 0⟩).isFinite = true) :
    clampInt32 (Decimal.toFloating f ⟨negative, n, 0⟩).truncate
      = clampInt32 (signed negative n) := by
  have hfinite := isFinite_whole_iff.mp h
  rw [truncate_whole]
  by_cases hsmall : n < 2 * 2 ^ f.fractionBits
  · rw [whole_of_lt hfinite hsmall]
  · -- Both are beyond 32 bits, on the same side.
    have hpower : 2 ^ (31 : Nat) ≤ 2 ^ f.fractionBits := Nat.pow_le_pow_right (by omega) hroom
    have hn : n ≠ 0 := by omega
    have hplaces : 31 ≤ n.log2 := (Nat.le_log2 hn).mpr (by omega)
    have hwhole : 2 ^ (31 : Nat) ≤ whole f n :=
      Nat.le_trans (Nat.pow_le_pow_right (by omega) hplaces) (le_whole hn hfinite)
    apply clampInt32_congr
    unfold signed
    split <;> omega

/-- An integer rounds to a finite 64-bit number below `2 ^ 1024 - 2 ^ 970`. -/
theorem isFinite_double_iff :
    (Decimal.toFloating .double ⟨negative, n, 0⟩).isFinite = true
      ↔ n + 2 ^ (970 : Nat) < 2 ^ (1024 : Nat) := by
  have hroom : Format.double.fractionBits ≤ Format.double.depth := by decide
  have htop : Format.double.depth + 2 = 1024 := rfl
  have hlast : Format.double.depth - Format.double.fractionBits = 970 := rfl
  rw [isFinite_whole_iff, nearest_lt_infinity_iff (by decide) hroom, htop, hlast]

end Number

/-! ## Lines of a file -/

theorem trim_of_field? {line text : List Char} {n : Nat} (h : field? line n = some text) :
    trim text = text := by
  obtain ⟨piece, -, rfl⟩ := Option.map_eq_some_iff.mp h
  exact trim_trim piece

section

variable {before : List (List Char)} {raw : List Char} {x beatLength : Double}
  (h : (Reader.feedAll {} before).area = .timingPoints)
  (hfirst : (field? raw 0).bind (readFloating .double) = some x)

include h hfirst

/-- A line with a finite offset adds a timing point. -/
theorem addsPoint_of_finite (hfinite : x.isFinite = true)
    (hsecond : (field? raw 1).bind (readFloating .double) = some beatLength) :
    ∃ p complaint, AddsPoint before raw (some p) complaint ∧ p.offset = clampInt32 x.truncate
      ∧ p.beatLength = beatLength := by
  have hstart : AreOfPoint (trim raw) x beatLength := by
    rw [AreOfPoint, field?_trim, field?_trim]
    exact ⟨hfirst, hfinite, hsecond⟩
  have hadds := addsPoint_read (Reader.area_feedAll before ▸ h) (isContent_of_readFloating hfirst)
  rw [TimingPoint.read_of_start hstart] at hadds
  exact ⟨_, _, hadds, rfl, rfl⟩

/-- A line with an infinite offset adds no timing point. -/
theorem addsPoint_of_not_finite (hfinite : x.isFinite = false) :
    ∃ fault, AddsPoint before raw none (some fault) := by
  have hadds := addsPoint_read (Reader.area_feedAll before ▸ h) (isContent_of_readFloating hfirst)
  have hnone : (TimingPoint.read (trim raw)).value = none := by
    rw [← Option.not_isSome_iff_eq_none, TimingPoint.isSome_read_iff]
    rintro ⟨offset, _, hoffset, hother, -⟩
    rw [field?_trim, hfirst, Option.some.injEq] at hoffset
    rw [← hoffset, hfinite] at hother
    cases hother
  obtain ⟨fault, hfault⟩ := Option.isSome_iff_exists.mp (TimingPoint.isSome_fault_of_not hnone)
  rw [hnone, hfault] at hadds
  exact ⟨fault, hadds⟩

end

/-- **Integer offsets are exact.** Let the first field of a line of timing points be an integer
literal of any length and the second a beat length. If the integer rounds to a finite 64-bit number,
the line adds a timing point whose offset is the integer clamped to the range of `Int32`; otherwise
it adds only a diagnostic. In particular, an offset that is valid for a hit object is read as the
same offset of a timing point. -/
theorem timingPoint_offset {before : List (List Char)} {raw sign digits : List Char}
    {beatLength : Double}
    (h : (Reader.feedAll {} before).area = .timingPoints) (hinteger : IsInteger sign digits)
    (hfirst : field? raw 0 = some (sign ++ digits))
    (hsecond : (field? raw 1).bind (readFloating .double) = some beatLength) :
    let n := signed (sign = ['-']) (digitsValue digits)
    ∃ x : Double, readFloating .double (sign ++ digits) = some x
      ∧ (x.isFinite = true ↔ n.natAbs + 2 ^ (970 : Nat) < 2 ^ (1024 : Nat))
      ∧ (x.isFinite = true → ∃ p complaint, AddsPoint before raw (some p) complaint
        ∧ p.offset.toInt = max (-2147483648) (min n 2147483647) ∧ p.beatLength = beatLength)
      ∧ (x.isFinite = false → x = .infinite (sign = ['-'])
        ∧ ∃ fault, AddsPoint before raw none (some fault))
      ∧ ∀ k, HitObject.readField .offset (sign ++ digits) = .ok k
        → ∃ p complaint, AddsPoint before raw (some p) complaint ∧ p.offset = k := by
  intro n
  have hread := hinteger.readFloating_append .double
  have hnumber : (field? raw 0).bind (readFloating .double)
      = some (Decimal.toFloating .double ⟨sign = ['-'], digitsValue digits, 0⟩) := by
    rw [hfirst, Option.bind_some, hread]
  have hpoint : (Decimal.toFloating .double ⟨sign = ['-'], digitsValue digits, 0⟩).isFinite = true
      → ∃ p complaint, AddsPoint before raw (some p) complaint ∧ p.offset = clampInt32 n
        ∧ p.beatLength = beatLength := by
    intro hfinite
    rw [← clampInt32_truncate (by decide) hfinite]
    exact addsPoint_of_finite h hnumber hfinite hsecond
  have hrange : (Decimal.toFloating .double ⟨sign = ['-'], digitsValue digits, 0⟩).isFinite = true
      ↔ n.natAbs + 2 ^ (970 : Nat) < 2 ^ (1024 : Nat) := by
    rw [isFinite_double_iff, natAbs_signed]
  refine ⟨_, hread, hrange, ?_, ?_, ?_⟩
  · intro hfinite
    obtain ⟨p, complaint, hadds, hoffset, hbeat⟩ := hpoint hfinite
    refine ⟨p, complaint, hadds, ?_, hbeat⟩
    rw [hoffset, toInt_clampInt32]
  · intro hinfinite
    exact ⟨toFloating_of_not_finite hinfinite, addsPoint_of_not_finite h hnumber hinfinite⟩
  · intro k hk
    have hn : n = k.toInt := by
      rw [HitObject.readField_eq_ok_iff, trim_of_field? hfirst] at hk
      exact Option.some.inj (hinteger.readInt_append.symm.trans (toInt_of_readInt32 hk))
    -- An integer in the range of `Int32` rounds to a finite number.
    have hsmall : digitsValue digits < 2 * 2 ^ Format.double.fractionBits := by
      have hlow := k.le_toInt
      have hhigh := k.toInt_lt
      rw [← natAbs_signed (sign = ['-']) (digitsValue digits)]
      show n.natAbs < 9007199254740992
      omega
    have hfinite := nearest_lt_infinity_of_lt (by decide) (by decide) hsmall
    obtain ⟨p, complaint, hadds, hoffset, -⟩ := hpoint (isFinite_whole_iff.mpr hfinite)
    refine ⟨p, complaint, hadds, ?_⟩
    rw [hoffset, hn, clampInt32_toInt]

/-- An integer just below the range of `Int32`, and one that rounds to infinity. -/
theorem timingPoint_offset_of_great_numbers :
    let before := ["[TimingPoints]".toList]
    (∃ p complaint, AddsPoint before " -0002147483649 ,400".toList (some p) complaint
        ∧ p.offset.toInt = -2147483648)
      ∧ ∃ fault, AddsPoint before ('+' :: (List.replicate 309 '9' ++ ",400".toList)) none
        (some fault) := by
  intro before
  have harea : (Reader.feedAll {} before).area = .timingPoints := by decide +kernel
  refine ⟨?_, ?_⟩
  · have hinteger : IsInteger ['-'] "0002147483649".toList :=
      ⟨by decide, by decide, List.all_eq_true.mp (by decide)⟩
    obtain ⟨x, -, hrange, hpoint, -⟩ := timingPoint_offset harea hinteger
      (by decide +kernel : field? " -0002147483649 ,400".toList 0 = _)
      (by decide +kernel : _ = some (Decimal.toFloating .double ⟨false, 400, 0⟩))
    obtain ⟨p, complaint, hadds, hoffset, -⟩ := hpoint (hrange.mpr (by decide +kernel))
    exact ⟨p, complaint, hadds, hoffset⟩
  · have hinteger : IsInteger ['+'] (List.replicate 309 '9') := by
      refine ⟨by decide, by decide, ?_⟩
      intro c hc
      rw [List.eq_of_mem_replicate hc]
      decide
    obtain ⟨x, -, hrange, -, hnone, -⟩ := timingPoint_offset harea hinteger
      (by decide +kernel : field? ('+' :: (List.replicate 309 '9' ++ ",400".toList)) 0 = _)
      (by decide +kernel : _ = some (Decimal.toFloating .double ⟨false, 400, 0⟩))
    have hlarge : ¬x.isFinite = true := mt hrange.mp (by decide +kernel)
    exact (hnone (eq_false_of_ne_true hlarge)).2

end Beatmap
