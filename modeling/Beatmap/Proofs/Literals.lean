import Beatmap.Json.Number
import Beatmap.Json.Parser
import Beatmap.Json.Printer
import Mathlib.Data.List.Basic

/-!
# Printing and parsing numbers

A literal is regular if its digits are decimal digits and it has no superfluous leading zero. All
printed literals are regular. A regular literal is parsed back from its text, provided that the text
does not continue with another character of a number (`readLiteral_print`). Integers are decoded to
themselves (`int?_ofInt`), and the literal of a decimal has the value of the decimal, whichever
notation is used (`toFloating_literal`).
-/

namespace Beatmap.Json

open Beatmap.Number
open Beatmap.Json.Value (digitsOf)

/-! ## Digits -/

theorem isDigit_of_mem_digitsOf {n : Nat} {c : Char} (h : c ∈ digitsOf n) : isDigit c = true :=
  Nat.isDigit_of_mem_toDigits (by decide) (by decide) h

theorem digitsOf_ne_nil (n : Nat) : digitsOf n ≠ [] := Nat.toDigits_ne_nil

theorem digitsValue_digitsOf (n : Nat) : digitsValue (digitsOf n) = n := by
  have hvalue := @Nat.ofDigitChars_toDigits 10 n (by decide) (by decide)
  rwa [Nat.ofDigitChars_eq_foldl] at hvalue

/-- Only the digits of zero start with a zero. -/
theorem eq_zero_of_head?_digitsOf {n : Nat} (h : (digitsOf n).head? = some '0') : n = 0 := by
  induction n using Nat.strongRecOn with
  | _ n ih =>
    by_cases hn : n < 10
    · rw [digitsOf, Nat.toDigits_of_lt_base hn] at h
      have hzero : ∀ m < 10, [m.digitChar].head? = some '0' → m = 0 := by decide
      exact hzero n hn h
    · rw [digitsOf, Nat.toDigits_of_base_le (by decide) (by omega),
        List.head?_append_of_ne_nil _ Nat.toDigits_ne_nil] at h
      have := ih (n / 10) (by omega) h
      omega

/-! ## Regular literals -/

/-- The digits of the literal are decimal digits, without a superfluous leading zero. -/
structure Literal.IsRegular (l : Literal) : Prop where
  whole_ne_nil : l.whole ≠ []
  whole_digits : ∀ c ∈ l.whole, isDigit c = true
  lone_zero : ∀ rest, l.whole = '0' :: rest → rest = []
  fraction_digits : ∀ c ∈ l.fraction, isDigit c = true

theorem lone_zero_of_digitsOf {n : Nat} {rest : List Char} (h : digitsOf n = '0' :: rest) :
    rest = [] := by
  have hn : n = 0 := eq_zero_of_head?_digitsOf (by rw [h]; rfl)
  subst hn
  rw [digitsOf, Nat.toDigits_zero] at h
  cases h
  rfl

/-- The literal of an integer. -/
def Literal.ofInt (n : Int) : Literal := { negative := n < 0, whole := digitsOf n.natAbs }

theorem Literal.isRegular_ofInt (n : Int) : (Literal.ofInt n).IsRegular where
  whole_ne_nil := digitsOf_ne_nil _
  whole_digits _ := isDigit_of_mem_digitsOf
  lone_zero _ := lone_zero_of_digitsOf
  fraction_digits := by simp [ofInt]

theorem Literal.int?_ofInt (n : Int) : (Literal.ofInt n).int? = some n := by
  simp only [int?, ofInt, List.isEmpty_nil, Option.isNone_none, Bool.and_self, if_true,
    digitsValue_digitsOf]
  by_cases hn : n < 0
  · have hne : n.natAbs ≠ 0 := by omega
    simp only [hn, decide_true, Bool.not_true, Bool.false_eq_true, if_false, hne]
    congr 1
    omega
  · simp only [hn, decide_false, Bool.not_false, if_true]
    congr 1
    omega

/-- The literal of a decimal is regular, if zero has exponent zero. -/
theorem Layout.isRegular_literal (layout : Layout) {d : Decimal}
    (h : d.digits = 0 → d.exponent = 0) : (layout.literal d).IsRegular := by
  have hdigits : ∀ c ∈ digitsOf d.digits, isDigit c = true := fun _ => isDigit_of_mem_digitsOf
  have hne := digitsOf_ne_nil d.digits
  unfold literal
  dsimp only
  split
  next =>
    split
    next n hn =>
      -- The digits before the point are padded with zeros.
      refine ⟨by simp [hne], ?_, ?_, ?_⟩
      · intro c hc
        rcases List.mem_append.mp hc with hc | hc
        · exact hdigits c (List.mem_of_mem_take hc)
        · rw [List.eq_of_mem_replicate hc]
          decide
      · intro rest hrest
        obtain ⟨first, others, hfirst⟩ := List.exists_cons_of_ne_nil hne
        have hzero : first = '0' := by
          rw [hfirst, List.take_succ_cons, List.cons_append, List.cons.injEq] at hrest
          exact hrest.1
        subst hzero
        have hothers := lone_zero_of_digitsOf hfirst
        subst hothers
        -- The number is zero, and so is the exponent of its leading digit.
        have hexponent := h (eq_zero_of_head?_digitsOf (by rw [hfirst]; rfl))
        have hn0 : n = 0 := by
          rw [hfirst, hexponent, List.length_singleton] at hn
          exact (Int.ofNat.inj hn).symm
        subst hn0
        rw [hfirst] at hrest
        simpa using hrest.symm
      · dsimp only
        split
        next =>
          intro c hc
          rw [List.mem_singleton.mp hc]
          decide
        next => exact fun c hc => hdigits c (List.mem_of_mem_drop hc)
    next n _ =>
      refine ⟨by simp, by simp [isDigit], by simp, ?_⟩
      intro c hc
      rcases List.mem_append.mp hc with hc | hc
      · rw [List.eq_of_mem_replicate hc]
        decide
      · exact hdigits c hc
  next =>
    obtain ⟨first, others, hfirst⟩ := List.exists_cons_of_ne_nil hne
    refine ⟨by simp [hne], fun c hc => hdigits c (List.mem_of_mem_take hc), ?_,
      fun c hc => hdigits c (List.mem_of_mem_drop hc)⟩
    intro rest hrest
    simp only [hfirst, List.take_succ_cons, List.take_zero, List.cons.injEq] at hrest
    exact hrest.2.symm

/-- The shortest decimal of zero has exponent zero. -/
theorem exponent_shortest {f : Format} {x : Floating f} (h : x.isFinite = true)
    (hd : x.shortest.digits = 0) : x.shortest.exponent = 0 := by
  have hback := nearestDecimal_shortestDigits (Floating.isFinite_iff.mp h)
  have hzero : (shortestDigits f x.magnitude).1 = 0 := hd
  rw [hzero, nearestDecimal.eq_def, if_pos rfl] at hback
  show (shortestDigits f x.magnitude).2 = 0
  rw [shortestDigits, if_pos hback.symm]

/-! ## Values of literals -/

/-- The exact value of a literal. -/
def Literal.decimal (l : Literal) : Decimal :=
  ⟨l.negative, digitsValue (l.whole ++ l.fraction), l.exponent.getD 0 - l.fraction.length⟩

theorem Literal.decimal_eq {l : Literal} {d : Decimal} (hsign : l.negative = d.negative)
    (hdigits : digitsValue (l.whole ++ l.fraction) = d.digits)
    (hexponent : l.exponent.getD 0 - l.fraction.length = d.exponent) : l.decimal = d := by
  rw [decimal, hsign, hdigits, hexponent]

theorem digitsValue_replicate_zero (n : Nat) : digitsValue (List.replicate n '0') = 0 := by
  induction n with
  | zero => rfl
  | succ n ih =>
    rw [List.replicate_succ', digitsValue_append, ih]
    rfl

/-- Multiplying the digits by ten and decreasing the exponent by one preserves the value. -/
theorem nearestDecimal_tenth {f : Format} {digits up : Nat}
    (h : 3 * up < 2 ^ (f.exponentBits - 1)) :
    nearestDecimal f (digits * 10 ^ (up + 1)) (-1) = nearestDecimal f digits up := by
  by_cases hd : digits = 0
  · subst hd
    rw [Nat.zero_mul, nearestDecimal.eq_def, nearestDecimal.eq_def]
    rfl
  · have hpos : 0 < digits * 10 ^ up :=
      Nat.mul_pos (Nat.pos_of_ne_zero hd) (Nat.pow_pos (by decide))
    have hten : digits * 10 ^ (up + 1) = digits * 10 ^ up * 10 := by
      rw [Nat.pow_succ, Nat.mul_assoc]
    have hne : digits * 10 ^ up * 10 ≠ 0 := by omega
    have hlog : 3 ≤ (digits * 10 ^ up * 10).log2 := (Nat.le_log2 hne).mpr (by omega)
    have hleft : nearestDecimal f (digits * 10 ^ up * 10) (.negSucc 0)
        = nearest f (digits * 10 ^ up * 10) (1 * 10) := by
      rw [nearestDecimal.eq_def, if_neg hne]
      dsimp only
      rw [if_neg (by omega)]
    have hright : nearestDecimal f digits (.ofNat up) = nearest f (digits * 10 ^ up) 1 := by
      rw [nearestDecimal.eq_def, if_neg hd]
      dsimp only
      rw [if_neg (by omega)]
    rw [hten]
    exact hleft.trans ((nearest_mul_mul (by decide)).trans hright.symm)

theorem toFloating_congr {f : Format} {d e : Decimal} (hsign : d.negative = e.negative)
    (hvalue : nearestDecimal f d.digits d.exponent = nearestDecimal f e.digits e.exponent) :
    d.toFloating f = e.toFloating f := by
  simp only [Decimal.toFloating, hsign, hvalue]

/-- The notation of a decimal does not affect its value. -/
theorem Layout.toFloating_literal (layout : Layout) {f : Format}
    (h : 3 * layout.greatest < (2 ^ (f.exponentBits - 1) : Nat)) (d : Decimal) :
    (layout.literal d).decimal.toFloating f = d.toFloating f := by
  have hdigits := digitsValue_digitsOf d.digits
  have hlength : 0 < (digitsOf d.digits).length := List.length_pos_iff.mpr (digitsOf_ne_nil _)
  unfold literal
  dsimp only
  split
  next hin =>
    split
    next n hn =>
      rw [Int.ofNat_eq_natCast] at hn
      by_cases hexponent : 0 ≤ d.exponent
      · -- Zeros are filled in up to the point, and one behind it.
        obtain ⟨up, hup⟩ := Int.eq_ofNat_of_zero_le hexponent
        have htake : (digitsOf d.digits).take (n + 1) = digitsOf d.digits :=
          List.take_of_length_le (by omega)
        have hdrop : (digitsOf d.digits).drop (n + 1) = [] := List.drop_of_length_le (by omega)
        have hzeros : n + 1 - (digitsOf d.digits).length = up := by omega
        rw [htake, hdrop, hzeros]
        have hvalue : digitsValue (digitsOf d.digits ++ List.replicate up '0' ++ ['0'])
            = d.digits * 10 ^ (up + 1) := by
          rw [List.append_assoc, ← List.replicate_succ', digitsValue_append, hdigits,
            digitsValue_replicate_zero, List.length_replicate, Nat.add_zero]
        refine toFloating_congr rfl ?_
        show nearestDecimal f
            (digitsValue (digitsOf d.digits ++ List.replicate up '0' ++ ['0'])) (-1)
          = _
        rw [hvalue, hup]
        exact nearestDecimal_tenth (by omega)
      · have hsplit : (digitsOf d.digits).drop (n + 1) ≠ [] := by
          rw [← List.length_pos_iff, List.length_drop]
          omega
        have hzeros : n + 1 - (digitsOf d.digits).length = 0 := by omega
        rw [hzeros, List.replicate_zero, List.append_nil, List.isEmpty_eq_false_iff.mpr hsplit,
          if_neg Bool.false_ne_true]
        rw [Literal.decimal_eq (d := d) rfl]
        · rw [List.take_append_drop, hdigits]
        · show (0 : Int) - ((digitsOf d.digits).drop (n + 1)).length = d.exponent
          rw [List.length_drop]
          omega
    next n hn =>
      rw [Int.negSucc_eq] at hn
      rw [Literal.decimal_eq (d := d) rfl]
      · show digitsValue (List.replicate (n + 1) '0' ++ digitsOf d.digits) = d.digits
        rw [digitsValue_append, hdigits, digitsValue_replicate_zero, Nat.zero_mul, Nat.zero_add]
      · show (0 : Int) - (List.replicate n '0' ++ digitsOf d.digits).length = d.exponent
        rw [List.length_append, List.length_replicate]
        omega
  next =>
    rw [Literal.decimal_eq (d := d) rfl]
    · rw [List.take_append_drop, hdigits]
    · show d.exponent + (digitsOf d.digits).length - 1 - ((digitsOf d.digits).drop 1).length
        = d.exponent
      rw [List.length_drop]
      omega

/-! ## Parsing printed literals -/

/-- The text does not continue a number. -/
def EndsNumber (rest : List Char) : Prop :=
  ∀ c ∈ rest.head?, isDigit c = false ∧ c ≠ '.' ∧ c ≠ 'e' ∧ c ≠ 'E'

theorem takeDigits_append {digits rest : List Char} (hd : ∀ c ∈ digits, isDigit c = true)
    (hr : ∀ c ∈ rest.head?, isDigit c = false) : takeDigits (digits ++ rest) = (digits, rest) := by
  have hrest : rest.takeWhile isDigit = [] ∧ rest.dropWhile isDigit = rest := by
    cases rest with
    | nil => exact ⟨rfl, rfl⟩
    | cons c rest =>
      have hc : isDigit c = false := hr c (by simp)
      simp [hc]
  rw [takeDigits, List.takeWhile_append_of_pos hd, List.dropWhile_append_of_pos hd,
    hrest.1, hrest.2, List.append_nil]

theorem readWhole_append {l : Literal} (h : l.IsRegular) {rest : List Char}
    (hr : ∀ c ∈ rest.head?, isDigit c = false) :
    readWhole (l.whole ++ rest) = some (l.whole, rest) := by
  rw [readWhole, takeDigits_append h.whole_digits hr]
  split
  next he => exact absurd (congrArg Prod.fst he) h.whole_ne_nil
  next he =>
    have := h.lone_zero _ (congrArg Prod.fst he)
    cases this
  next he =>
    cases he
    rfl

theorem readFraction_append {l : Literal} (h : l.IsRegular) {rest : List Char}
    (hr : ∀ c ∈ rest.head?, isDigit c = false ∧ c ≠ '.') :
    readFraction (printFraction l.fraction ++ rest) = some (l.fraction, rest) := by
  unfold printFraction
  split
  next he =>
    rw [List.isEmpty_iff.mp he, List.nil_append]
    unfold readFraction
    split
    next => exact absurd rfl (hr '.' rfl).2
    next => rfl
  next he =>
    rw [List.cons_append, readFraction, takeDigits_append h.fraction_digits fun c hc => (hr c hc).1]
    split
    next heq => exact absurd (List.isEmpty_iff.mpr (congrArg Prod.fst heq)) he
    next heq =>
      cases heq
      rfl

theorem readExponent_append (exponent : Option Int) {rest : List Char} (hr : EndsNumber rest) :
    readExponent (exponent.elim [] printExponent ++ rest) = some (exponent, rest) := by
  cases exponent with
  | none =>
    cases rest with
    | nil => rfl
    | cons c rest =>
      obtain ⟨-, -, he, hE⟩ := hr c rfl
      show readExponent (c :: rest) = some (none, c :: rest)
      rw [readExponent, if_neg (not_or.mpr ⟨he, hE⟩)]
  | some n =>
    have hdigits := takeDigits_append (fun _ => isDigit_of_mem_digitsOf (n := n.natAbs))
      fun c hc => (hr c hc).1
    have hsign : readSign ((if n < 0 then '-' else '+') :: (digitsOf n.natAbs ++ rest))
        = (decide (n < 0), digitsOf n.natAbs ++ rest) := by
      split <;> simp_all [readSign]
    show readExponent ('e' :: (if n < 0 then '-' else '+') :: (digitsOf n.natAbs ++ rest)) = _
    rw [readExponent, if_pos (Or.inl rfl), hsign]
    dsimp only
    rw [hdigits]
    split
    next heq => exact absurd (congrArg Prod.fst heq) (digitsOf_ne_nil _)
    next digits rest' _ heq =>
      cases heq
      rw [digitsValue_digitsOf]
      by_cases hn : n < 0
      · simp only [hn, decide_true, if_true]
        congr 3
        omega
      · simp only [hn, decide_false, Bool.false_eq_true, if_false]
        congr 3
        omega

theorem head?_ne_of_digits {digits rest : List Char} (hne : digits ≠ [])
    (hd : ∀ c ∈ digits, isDigit c = true) {c : Char} (hc : isDigit c = false) :
    (digits ++ rest).head? ≠ some c := by
  obtain ⟨first, others, rfl⟩ := List.exists_cons_of_ne_nil hne
  intro he
  cases he
  rw [hd c (List.mem_cons_self ..)] at hc
  cases hc

/-- A regular literal is parsed back from its text. -/
theorem readLiteral_print {l : Literal} (h : l.IsRegular) {rest : List Char}
    (hr : EndsNumber rest) :
    readLiteral (l.print ++ rest) = some (l, rest) := by
  have hexponent : ∀ c ∈ (l.exponent.elim [] printExponent ++ rest).head?,
      isDigit c = false ∧ c ≠ '.' := by
    intro c hc
    cases he : l.exponent with
    | none =>
      rw [he] at hc
      exact ⟨(hr c hc).1, (hr c hc).2.1⟩
    | some n =>
      rw [he] at hc
      cases hc
      decide
  have hfraction : ∀ c ∈ (printFraction l.fraction
      ++ (l.exponent.elim [] printExponent ++ rest)).head?, isDigit c = false := by
    intro c hc
    unfold printFraction at hc
    split at hc
    next => exact (hexponent c hc).1
    next =>
      cases hc
      decide
  have hwhole := readWhole_append h hfraction
  have hrest := readFraction_append h hexponent
  have hend := readExponent_append l.exponent hr
  obtain ⟨negative, whole, fraction, exponent⟩ := l
  simp only [Literal.print, List.append_assoc]
  cases negative with
  | true =>
    rw [if_pos rfl, List.singleton_append, readLiteral]
    simp only [hwhole, hrest, hend, Option.bind_eq_bind, Option.bind_some, Option.pure_def]
  | false =>
    -- The first digit is not parsed as a sign.
    have hminus :
        (whole ++ (printFraction fraction ++ (exponent.elim [] printExponent ++ rest))).head?
        ≠ some '-' := head?_ne_of_digits h.whole_ne_nil h.whole_digits (by decide)
    rw [if_neg Bool.false_ne_true, List.nil_append, readLiteral]
    · simp only [hwhole, hrest, hend, Option.bind_eq_bind, Option.bind_some, Option.pure_def]
    · intro others he
      exact hminus (congrArg List.head? he)

end Beatmap.Json
