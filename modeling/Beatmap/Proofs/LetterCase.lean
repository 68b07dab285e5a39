import Beatmap.Text.Ascii
import Beatmap.Text.LowerCase
import Mathlib.Data.List.TakeWhile

/-!
# Properties of Unicode lower case

`lowerCase` is idempotent (`lowerCase_lowerCase`) and does not distinguish the case of ASCII letters
(`lowerFrom_lowerAsciiText`). Both need the context-dependent cases: the form of a capital sigma
depends on the letters around it, and one character is mapped to two.

`Lowered` is a context-free approximation of `lowerCase`: every character is replaced by one of its
possible forms. It suffices to show that lower case preserves punctuation marks (`Lowered.mem_iff`),
and that it agrees with ASCII lower case unless both results contain characters that are not plain
(`Lowered.eq_or_not_plain`).
-/

namespace Beatmap.Text

/-! ## The lower-case table -/

/-- Whether no target of the first run belongs to the second run. -/
def CaseRun.avoids (run other : CaseRun) : Bool :=
  Nat.blt (run.target + (run.last - run.first)) other.first
    || Nat.blt other.last run.target
    || (other.step == 2 && (run.step == 2 || run.first == run.last)
      && (run.target + other.first) % 2 == 1)

/-- The targets of a run are valid characters without a lower-case mapping of their own. -/
structure CaseRun.IsFinal (run : CaseRun) : Prop where
  /-- The targets are below the surrogates. -/
  valid : run.target + (run.last - run.first) < 0xD800
    ∨ 0xDFFF < run.target ∧ run.target + (run.last - run.first) < 0x110000
  /-- The run does not contain U+0130, which is mapped to two characters. -/
  single : run.target + (run.last - run.first) < 0x130 ∨ 0x130 < run.target
  avoids : caseRuns.all run.avoids = true

theorem caseRuns_isFinal {run : CaseRun} (hrun : run ∈ caseRuns) : run.IsFinal := by
  have hcodes : ∀ run ∈ caseRuns,
      (run.target + (run.last - run.first) < 0xD800
        ∨ 0xDFFF < run.target ∧ run.target + (run.last - run.first) < 0x110000)
      ∧ (run.target + (run.last - run.first) < 0x130 ∨ 0x130 < run.target) := by
    decide +kernel
  have havoids : (caseRuns.all fun run => caseRuns.all run.avoids) = true := by decide +kernel
  obtain ⟨hvalid, hsingle⟩ := hcodes run hrun
  exact ⟨hvalid, hsingle, List.all_eq_true.mp havoids run hrun⟩

theorem CaseRun.holds_iff {run : CaseRun} {c : Char} :
    run.holds c = true
      ↔ run.first ≤ c.toNat ∧ c.toNat ≤ run.last ∧ (c.toNat - run.first) % run.step = 0 := by
  simp [CaseRun.holds, and_assoc]

/-- The target of a character of a run. -/
def CaseRun.form (run : CaseRun) (c : Char) : Char :=
  Char.ofNat (run.target + (c.toNat - run.first))

theorem CaseRun.toNat_form {run : CaseRun} {c : Char} (hrun : run ∈ caseRuns)
    (h : run.holds c = true) : (run.form c).toNat = run.target + (c.toNat - run.first) := by
  obtain ⟨hfirst, hlast, -⟩ := CaseRun.holds_iff.mp h
  have hvalid := (caseRuns_isFinal hrun).valid
  have hcode : (run.target + (c.toNat - run.first)).isValidChar := by
    unfold Nat.isValidChar
    omega
  rw [CaseRun.form, Char.ofNat, dif_pos hcode]
  rfl

theorem CaseRun.not_holds_form {run other : CaseRun} {c : Char} (hrun : run ∈ caseRuns)
    (hother : other ∈ caseRuns) (h : run.holds c = true) : other.holds (run.form c) = false := by
  rw [← Bool.not_eq_true, CaseRun.holds_iff, CaseRun.toNat_form hrun h]
  obtain ⟨hfirst, hlast, hstep⟩ := CaseRun.holds_iff.mp h
  have havoids := List.all_eq_true.mp (caseRuns_isFinal hrun).avoids other hother
  simp only [CaseRun.avoids, Bool.or_eq_true, Nat.blt_eq, Bool.and_eq_true, beq_iff_eq] at havoids
  rintro ⟨hbegins, hends, hplace⟩
  rcases havoids with (hbelow | habove) | ⟨⟨hstepOther, halternate⟩, hodd⟩
  · omega
  · omega
  · -- Upper and lower case take turns, so the form lies between two characters of the other run.
    rw [hstepOther] at hplace
    rcases halternate with hstepTwo | hone
    · rw [hstepTwo] at hstep
      omega
    · omega

/-- The cases of the lower-case mapping: two characters, the target of a run, or the character
itself. -/
theorem lowerChar_cases (c : Char) :
    (c = '\u0130' ∧ lowerChar c = ['i', '\u0307'])
      ∨ (∃ run ∈ caseRuns, run.holds c = true ∧ lowerChar c = [run.form c])
      ∨ (c ≠ '\u0130' ∧ (∀ run ∈ caseRuns, run.holds c = false) ∧ lowerChar c = [c]) := by
  unfold lowerChar
  by_cases hdotted : c = '\u0130'
  · rw [if_pos hdotted]
    exact .inl ⟨hdotted, rfl⟩
  · rw [if_neg hdotted]
    cases hfind : caseRuns.find? (fun run => run.holds c) with
    | none =>
      refine .inr (.inr ⟨hdotted, ?_, rfl⟩)
      intro run hrun
      exact Bool.not_eq_true _ ▸ List.find?_eq_none.mp hfind run hrun
    | some run =>
      have hholds : run.holds c = true :=
        List.find?_some (p := fun run : CaseRun => run.holds c) hfind
      exact .inr (.inl ⟨run, List.mem_of_find?_eq_some hfind, hholds, rfl⟩)

/-! ## Idempotence -/

/-- Whether a character is its own lower-case form. -/
def IsLower (c : Char) : Prop := lowerChar c = [c]

theorem isLower_of_not_holds {c : Char} (hdotted : c ≠ '\u0130')
    (h : ∀ run ∈ caseRuns, run.holds c = false) : IsLower c := by
  have hfind : caseRuns.find? (fun run => run.holds c) = none := by
    rw [List.find?_eq_none]
    intro run hrun
    simp [h run hrun]
  rw [IsLower, lowerChar, if_neg hdotted, hfind]

theorem isLower_of_mem_lowerChar {c d : Char} (h : d ∈ lowerChar c) : IsLower d := by
  rcases lowerChar_cases c with ⟨-, hform⟩ | ⟨run, hrun, hholds, hform⟩ | ⟨-, -, hform⟩
  · rw [hform, List.mem_cons, List.mem_singleton] at h
    rcases h with rfl | rfl
    · unfold IsLower
      decide +kernel
    · unfold IsLower
      decide +kernel
  · rw [hform, List.mem_singleton] at h
    subst h
    refine isLower_of_not_holds ?_ fun other hother => CaseRun.not_holds_form hrun hother hholds
    intro hdotted
    have hcode := CaseRun.toNat_form hrun hholds
    rw [hdotted] at hcode
    have h130 : 0x130 = run.target + (c.toNat - run.first) := hcode
    obtain ⟨hfirst, hlast, -⟩ := CaseRun.holds_iff.mp hholds
    have hsingle := (caseRuns_isFinal hrun).single
    omega
  · rw [hform, List.mem_singleton] at h
    subst h
    exact hform

/-- A lower-case character is not a capital sigma. -/
theorem IsLower.ne_sigma {c : Char} (h : IsLower c) : c ≠ 'Σ' := by
  rintro rfl
  unfold IsLower at h
  revert h
  decide +kernel

theorem lowerFrom_cons_of_ne {c : Char} (h : c ≠ 'Σ') (before rest : List Char) :
    lowerFrom before (c :: rest) = lowerChar c ++ lowerFrom (c :: before) rest := by
  rw [lowerFrom, if_neg h]

theorem lowerFrom_cons_sigma (before rest : List Char) :
    lowerFrom before ('Σ' :: rest)
      = (if endsWord before rest then 'ς' else 'σ') :: lowerFrom ('Σ' :: before) rest := by
  rw [lowerFrom, if_pos rfl]

theorem lowerFrom_eq_self {text : List Char} (h : ∀ c ∈ text, IsLower c) (before : List Char) :
    lowerFrom before text = text := by
  induction text generalizing before with
  | nil => rfl
  | cons c rest ih =>
    have hc : IsLower c := h c (List.mem_cons_self ..)
    rw [lowerFrom_cons_of_ne hc.ne_sigma, hc, ih fun d hd => h d (List.mem_cons_of_mem _ hd)]
    rfl

/-! ## ASCII case -/

/-- The ASCII capital letters. -/
def asciiRun : CaseRun := ⟨0x41, 0x5A, 1, 0x61⟩

/-- The Kelvin sign, which is mapped to `k`. -/
def kelvinRun : CaseRun := ⟨0x212A, 0x212A, 1, 0x6B⟩

theorem asciiRun_mem : asciiRun ∈ caseRuns := List.mem_cons_self ..

theorem caseRuns_cases {run : CaseRun} (hrun : run ∈ caseRuns) :
    run = asciiRun ∨ run = kelvinRun ∨ 0x80 ≤ run.first ∧ 0x80 ≤ run.target := by
  have hall : ∀ run ∈ caseRuns,
      run = asciiRun ∨ run = kelvinRun ∨ 0x80 ≤ run.first ∧ 0x80 ≤ run.target := by decide +kernel
  exact hall run hrun

theorem holds_asciiRun_iff {c : Char} : asciiRun.holds c = true ↔ 'A' ≤ c ∧ c ≤ 'Z' := by
  rw [CaseRun.holds_iff]
  constructor
  · rintro ⟨hfirst, hlast, -⟩
    exact ⟨hfirst, hlast⟩
  · rintro ⟨hfirst, hlast⟩
    exact ⟨hfirst, hlast, Nat.mod_one _⟩

theorem lowerAscii_eq_form {c : Char} (h : asciiRun.holds c = true) :
    lowerAscii c = asciiRun.form c := by
  have hfirst : 0x41 ≤ c.toNat := (CaseRun.holds_iff.mp h).1
  have hplace : c.toNat + 32 = 0x61 + (c.toNat - 0x41) := by omega
  rw [lowerAscii, if_pos (holds_asciiRun_iff.mp h), hplace]
  rfl

theorem lowerAscii_eq_self {c : Char} (h : asciiRun.holds c = false) : lowerAscii c = c := by
  rw [lowerAscii, if_neg]
  rw [← holds_asciiRun_iff, h]
  exact Bool.false_ne_true

theorem lowerChar_eq_lowerAscii {c : Char} (h : asciiRun.holds c = true) :
    lowerChar c = [lowerAscii c] := by
  obtain ⟨hfirst, hlast, -⟩ := CaseRun.holds_iff.mp h
  have hlast : c.toNat ≤ 0x5A := hlast
  rcases lowerChar_cases c with ⟨rfl, -⟩ | ⟨run, hrun, hholds, hform⟩ | ⟨-, hnone, -⟩
  · exact absurd hlast (by decide)
  · obtain ⟨hbegins, -, -⟩ := CaseRun.holds_iff.mp hholds
    rcases caseRuns_cases hrun with rfl | rfl | ⟨hfar, -⟩
    · rw [hform, lowerAscii_eq_form h]
    · have : 0x212A ≤ c.toNat := hbegins
      omega
    · omega
  · rw [hnone asciiRun asciiRun_mem] at h
    cases h

/-- ASCII letters are cased and not case-ignorable. -/
theorem isCased_of_letter {c : Char}
    (h : 0x41 ≤ c.toNat ∧ c.toNat ≤ 0x5A ∨ 0x61 ≤ c.toNat ∧ c.toNat ≤ 0x7A) :
    isCased c = true ∧ isCaseIgnorable c = false := by
  constructor
  · rw [isCased, Ranges.contains_iff]
    rcases h with h | h
    · exact ⟨(0x41, 0x5A), by decide +kernel, h⟩
    · exact ⟨(0x61, 0x7A), by decide +kernel, h⟩
  · have hapart : ∀ range ∈ ignorableRanges,
        (range.2 < 0x41 ∨ 0x5A < range.1) ∧ (range.2 < 0x61 ∨ 0x7A < range.1) := by decide +kernel
    rw [isCaseIgnorable, ← Bool.not_eq_true, Ranges.contains_iff]
    rintro ⟨range, hrange, hbegins, hends⟩
    have := hapart range hrange
    omega

/-- A character and its ASCII lower case are indistinguishable for `lowerFrom`. -/
theorem lowerAscii_alike (c : Char) :
    isCased (lowerAscii c) = isCased c ∧ isCaseIgnorable (lowerAscii c) = isCaseIgnorable c
      ∧ lowerChar (lowerAscii c) = lowerChar c ∧ (lowerAscii c = 'Σ' ↔ c = 'Σ') := by
  cases hc : asciiRun.holds c with
  | false =>
    rw [lowerAscii_eq_self hc]
    exact ⟨rfl, rfl, rfl, Iff.rfl⟩
  | true =>
    obtain ⟨hfirst, hlast, -⟩ := CaseRun.holds_iff.mp hc
    have hcode : (lowerAscii c).toNat = 0x61 + (c.toNat - 0x41) := by
      rw [lowerAscii_eq_form hc]
      exact CaseRun.toNat_form asciiRun_mem hc
    have hlarge : 0x41 ≤ c.toNat ∧ c.toNat ≤ 0x5A := ⟨hfirst, hlast⟩
    obtain ⟨hcased, hkept⟩ := isCased_of_letter (.inl hlarge)
    obtain ⟨hcased', hkept'⟩ := isCased_of_letter (c := lowerAscii c) (.inr (by omega))
    have hform : lowerChar c = [lowerAscii c] := lowerChar_eq_lowerAscii hc
    have hlower : IsLower (lowerAscii c) := by
      apply isLower_of_mem_lowerChar (c := c)
      rw [hform]
      exact List.mem_singleton_self _
    refine ⟨hcased'.trans hcased.symm, hkept'.trans hkept.symm, hlower.trans hform.symm, ?_⟩
    refine iff_of_false hlower.ne_sigma ?_
    rintro rfl
    exact absurd hlarge.2 (by decide)

theorem IsLower.lowerAscii_eq {c : Char} (h : IsLower c) : lowerAscii c = c := by
  cases hc : asciiRun.holds c with
  | false => exact lowerAscii_eq_self hc
  | true => exact List.singleton_inj.mp ((lowerChar_eq_lowerAscii hc).symm.trans h)

theorem lowerAsciiText_cons (c : Char) (rest : List Char) :
    lowerAsciiText (c :: rest) = lowerAscii c :: lowerAsciiText rest := rfl

theorem casedNext_lowerAsciiText (text : List Char) :
    casedNext (lowerAsciiText text) = casedNext text := by
  have hignorable : isCaseIgnorable ∘ lowerAscii = isCaseIgnorable := by
    funext c
    exact (lowerAscii_alike c).2.1
  rw [casedNext, casedNext, lowerAsciiText, List.dropWhile_map, hignorable]
  cases text.dropWhile isCaseIgnorable with
  | nil => rfl
  | cons c rest => exact (lowerAscii_alike c).1

/-- Lower case does not depend on the ASCII case of the text or of its context. -/
theorem lowerFrom_lowerAsciiText (before text : List Char) :
    lowerFrom (lowerAsciiText before) (lowerAsciiText text) = lowerFrom before text := by
  induction text generalizing before with
  | nil => rfl
  | cons c rest ih =>
    obtain ⟨-, -, hlower, hsigma⟩ := lowerAscii_alike c
    -- `casedNext` does not distinguish the case of ASCII letters, so the rest of the text finds
    -- the same ends of words.
    have hrest := ih (c :: before)
    rw [lowerAsciiText_cons] at hrest ⊢
    by_cases hc : c = 'Σ'
    · have hself : lowerAscii c = 'Σ' := hsigma.mpr hc
      have hword : endsWord (lowerAsciiText before) (lowerAsciiText rest)
          = endsWord before rest := by
        rw [endsWord, endsWord, casedNext_lowerAsciiText, casedNext_lowerAsciiText]
      rw [hself] at hrest ⊢
      rw [hc] at hrest ⊢
      rw [lowerFrom_cons_sigma, lowerFrom_cons_sigma, hword, hrest]
    · have hform : lowerAscii c ≠ 'Σ' := fun e => hc (hsigma.mp e)
      rw [lowerFrom_cons_of_ne hform, lowerFrom_cons_of_ne hc, hlower, hrest]

/-! ## Context-free lower case -/

/-- The possible lower-case forms of a capital sigma. -/
def smallSigmas : List Char := ['σ', 'ς']

/-- Whether `form` is a possible lower-case form of `c` in some context. -/
def IsFormOf (c : Char) (form : List Char) : Prop :=
  if c = 'Σ' then ∃ d ∈ smallSigmas, form = [d] else form = lowerChar c

/-- Whether the second text is a possible lower case of the first, as part of some text. -/
inductive Lowered : List Char → List Char → Prop where
  | nil : Lowered [] []
  | cons {c : Char} {form rest lowered : List Char} (head : IsFormOf c form)
      (tail : Lowered rest lowered) : Lowered (c :: rest) (form ++ lowered)

theorem lowered_lowerFrom (before text : List Char) : Lowered text (lowerFrom before text) := by
  induction text generalizing before with
  | nil => exact .nil
  | cons c rest ih =>
    by_cases hc : c = 'Σ'
    · subst hc
      have hform : IsFormOf 'Σ' [if endsWord before rest then 'ς' else 'σ'] := by
        rw [IsFormOf, if_pos rfl]
        refine ⟨_, ?_, rfl⟩
        split
        · exact List.mem_cons_of_mem _ (List.mem_cons_self ..)
        · exact List.mem_cons_self ..
      rw [lowerFrom_cons_sigma]
      exact .cons hform (ih _)
    · rw [lowerFrom_cons_of_ne hc]
      exact .cons (by rw [IsFormOf, if_neg hc]) (ih _)

theorem lowered_lowerCase (text : List Char) : Lowered text (lowerCase text) :=
  lowered_lowerFrom [] text

theorem IsFormOf.cases {c : Char} {form : List Char} (h : IsFormOf c form) :
    (c = 'Σ' ∧ ∃ d ∈ smallSigmas, form = [d]) ∨ (c ≠ 'Σ' ∧ form = lowerChar c) := by
  unfold IsFormOf at h
  split at h
  next hc => exact .inl ⟨hc, h⟩
  next hc => exact .inr ⟨hc, h⟩

theorem of_mem_smallSigmas {d : Char} (h : d ∈ smallSigmas) : IsLower d ∧ 0x80 ≤ d.toNat := by
  have hall : (smallSigmas.all fun d => lowerChar d == [d] && Nat.ble 0x80 d.toNat) = true := by
    decide +kernel
  simpa [IsLower] using List.all_eq_true.mp hall d h

theorem IsFormOf.isLower {c d : Char} {form : List Char} (h : IsFormOf c form) (hd : d ∈ form) :
    IsLower d := by
  rcases h.cases with ⟨-, e, he, rfl⟩ | ⟨-, rfl⟩
  · rw [List.mem_singleton.mp hd]
    exact (of_mem_smallSigmas he).1
  · exact isLower_of_mem_lowerChar hd

theorem IsFormOf.ne_nil {c : Char} {form : List Char} (h : IsFormOf c form) : form ≠ [] := by
  rcases h.cases with ⟨-, e, -, rfl⟩ | ⟨-, rfl⟩
  · exact List.cons_ne_nil _ _
  · rcases lowerChar_cases c with ⟨-, hform⟩ | ⟨run, -, -, hform⟩ | ⟨-, -, hform⟩ <;>
      rw [hform] <;> exact List.cons_ne_nil _ _

theorem Lowered.isLower {text lowered : List Char} (h : Lowered text lowered) :
    ∀ d ∈ lowered, IsLower d := by
  induction h with
  | nil => simp
  | cons head _ ih =>
    intro d hd
    rcases List.mem_append.mp hd with hd | hd
    · exact head.isLower hd
    · exact ih d hd

theorem Lowered.lowerAsciiText_eq {text lowered : List Char} (h : Lowered text lowered) :
    lowerAsciiText lowered = lowered := by
  have hself : ∀ d ∈ lowered, lowerAscii d = d := fun d hd => (h.isLower d hd).lowerAscii_eq
  rw [lowerAsciiText, List.map_congr_left hself, List.map_id']

theorem Lowered.eq_nil_iff {text lowered : List Char} (h : Lowered text lowered) :
    lowered = [] ↔ text = [] := by
  cases h with
  | nil => exact Iff.rfl
  | cons head _ =>
    exact iff_of_false (fun e => head.ne_nil (List.append_eq_nil_iff.mp e).1) (List.cons_ne_nil _ _)

/-- `Lowered` is compatible with appending. -/
theorem Lowered.append {front back lowered : List Char} (h : Lowered (front ++ back) lowered) :
    ∃ before after, lowered = before ++ after ∧ Lowered front before ∧ Lowered back after := by
  induction front generalizing lowered with
  | nil => exact ⟨[], lowered, rfl, .nil, h⟩
  | cons c rest ih =>
    cases h with
    | cons head tail =>
      obtain ⟨before, after, rfl, hrest, hback⟩ := ih tail
      exact ⟨_, after, (List.append_assoc ..).symm, .cons head hrest, hback⟩

/-- Lower case is idempotent. -/
theorem lowerCase_lowerCase (text : List Char) : lowerCase (lowerCase text) = lowerCase text :=
  lowerFrom_eq_self (lowered_lowerCase text).isLower []

/-! ## Punctuation marks -/

/-- A mark precedes the ASCII small letters and has no lower-case mapping. -/
def IsMark (c : Char) : Prop := c.toNat < 0x61 ∧ IsLower c

theorem IsMark.mem_form_iff {mark c : Char} {form : List Char} (hm : IsMark mark)
    (h : IsFormOf c form) : mark ∈ form ↔ c = mark := by
  have hlow : mark.toNat < 0x61 := hm.1
  rcases h.cases with ⟨rfl, e, he, rfl⟩ | ⟨-, rfl⟩
  · refine iff_of_false ?_ hm.2.ne_sigma.symm
    intro hmem
    rw [List.mem_singleton.mp hmem] at hlow
    have := (of_mem_smallSigmas he).2
    omega
  · constructor
    · intro hmem
      rcases lowerChar_cases c with ⟨-, hform⟩ | ⟨run, hrun, hholds, hform⟩ | ⟨-, -, hform⟩
      · rw [hform, List.mem_cons, List.mem_singleton] at hmem
        rcases hmem with rfl | rfl
        · exact absurd hlow (by decide)
        · exact absurd hlow (by decide)
      · have htarget : ∀ run ∈ caseRuns, 0x61 ≤ run.target := by decide +kernel
        rw [hform, List.mem_singleton] at hmem
        rw [hmem, CaseRun.toNat_form hrun hholds] at hlow
        have := htarget run hrun
        omega
      · rw [hform, List.mem_singleton] at hmem
        exact hmem.symm
    · rintro rfl
      rw [hm.2]
      exact List.mem_singleton_self c

theorem IsMark.lowerAscii_eq_iff {mark c : Char} (hm : IsMark mark) :
    lowerAscii c = mark ↔ c = mark := by
  cases hc : asciiRun.holds c with
  | false => rw [lowerAscii_eq_self hc]
  | true =>
    have hlow := hm.1
    constructor
    · rintro rfl
      have hcode := CaseRun.toNat_form asciiRun_mem hc
      have htarget : asciiRun.target = 0x61 := rfl
      rw [lowerAscii_eq_form hc] at hlow
      omega
    · rintro rfl
      exact hm.2.lowerAscii_eq

theorem Lowered.mem_iff {mark : Char} {text lowered : List Char} (hm : IsMark mark)
    (h : Lowered text lowered) : mark ∈ lowered ↔ mark ∈ text := by
  induction h with
  | nil => exact Iff.rfl
  | cons head _ ih =>
    rw [List.mem_append, List.mem_cons, hm.mem_form_iff head, ih, eq_comm]

theorem Lowered.cons_mark {mark : Char} {rest lowered : List Char} (hm : IsMark mark)
    (h : Lowered (mark :: rest) lowered) :
    ∃ after, lowered = mark :: after ∧ Lowered rest after := by
  cases h with
  | cons head tail =>
    rcases head.cases with ⟨hsigma, -⟩ | ⟨-, rfl⟩
    · exact absurd hsigma hm.2.ne_sigma
    · rw [hm.2]
      exact ⟨_, rfl, tail⟩

theorem Lowered.eq_singleton_iff {mark : Char} {text lowered : List Char} (hm : IsMark mark)
    (h : Lowered text lowered) : lowered = [mark] ↔ text = [mark] := by
  constructor
  · rintro rfl
    obtain ⟨front, back, rfl⟩ :=
      List.append_of_mem ((h.mem_iff hm).mp (List.mem_singleton_self mark))
    obtain ⟨before, after, hcut, hbefore, hafter⟩ := h.append
    obtain ⟨rest, rfl, hrest⟩ := hafter.cons_mark hm
    -- The form of a single mark has length one, so there is nothing beside the mark.
    have hlength := congrArg List.length hcut
    simp only [List.length_cons, List.length_nil, List.length_append] at hlength
    obtain rfl : before = [] := List.eq_nil_of_length_eq_zero (by omega)
    obtain rfl : rest = [] := List.eq_nil_of_length_eq_zero (by omega)
    rw [hbefore.eq_nil_iff.mp rfl, hrest.eq_nil_iff.mp rfl]
    rfl
  · rintro rfl
    obtain ⟨rest, rfl, hrest⟩ := h.cons_mark hm
    rw [hrest.eq_nil_iff.mpr rfl]

/-! ## Agreement with ASCII lower case -/

/-- An ASCII character other than `k`, which is also the lower case of the Kelvin sign. -/
def IsPlain (c : Char) : Prop := c.toNat < 0x80 ∧ c ≠ 'k'

theorem not_isPlain_of_le {c : Char} (h : 0x80 ≤ c.toNat) : ¬IsPlain c := by
  intro hplain
  have := hplain.1
  omega

/-- ASCII lower case maps characters outside of ASCII to themselves. -/
theorem not_isPlain_lowerAscii {c : Char} (h : 0x80 ≤ c.toNat) : ¬IsPlain (lowerAscii c) := by
  have hself : lowerAscii c = c := by
    apply lowerAscii_eq_self
    rw [← Bool.not_eq_true, CaseRun.holds_iff]
    rintro ⟨-, hlast, -⟩
    have : c.toNat ≤ 0x5A := hlast
    omega
  rw [hself]
  exact not_isPlain_of_le h

/-- A form of a character is its ASCII lower case, or neither is plain. -/
theorem IsFormOf.eq_or_not_plain {c : Char} {form : List Char} (h : IsFormOf c form) :
    form = [lowerAscii c] ∨ ((∃ d ∈ form, ¬IsPlain d) ∧ ¬IsPlain (lowerAscii c)) := by
  rcases h.cases with ⟨rfl, e, he, rfl⟩ | ⟨-, rfl⟩
  · have hfar := not_isPlain_of_le (of_mem_smallSigmas he).2
    exact .inr ⟨⟨e, List.mem_singleton_self e, hfar⟩, not_isPlain_lowerAscii (by decide)⟩
  · rcases lowerChar_cases c with ⟨rfl, hform⟩ | ⟨run, hrun, hholds, hform⟩ | ⟨-, hnone, hform⟩
    · have hdot : ¬IsPlain '\u0307' := not_isPlain_of_le (by decide)
      rw [hform]
      exact .inr ⟨⟨_, by simp, hdot⟩, not_isPlain_lowerAscii (by decide)⟩
    · obtain ⟨hfirst, hlast, -⟩ := CaseRun.holds_iff.mp hholds
      rcases caseRuns_cases hrun with rfl | rfl | ⟨hfar, htarget⟩
      · exact .inl (lowerChar_eq_lowerAscii hholds)
      · have hsign : c.toNat = 0x212A := Nat.le_antisymm hlast hfirst
        have hk : ¬IsPlain (kelvinRun.form c) := by
          rw [CaseRun.form, hsign]
          exact fun hplain => hplain.2 rfl
        rw [hform]
        exact .inr ⟨⟨_, List.mem_singleton_self _, hk⟩, not_isPlain_lowerAscii (by omega)⟩
      · have hcode := CaseRun.toNat_form hrun hholds
        have hbeyond : ¬IsPlain (run.form c) := not_isPlain_of_le (by omega)
        rw [hform]
        exact .inr ⟨⟨_, List.mem_singleton_self _, hbeyond⟩, not_isPlain_lowerAscii (by omega)⟩
    · have hself : lowerAscii c = c := lowerAscii_eq_self (hnone asciiRun asciiRun_mem)
      exact .inl (by rw [hform, hself])

/-- The lower case of a text is its ASCII lower case, or both contain characters that are not plain.
-/
theorem Lowered.eq_or_not_plain {text lowered : List Char} (h : Lowered text lowered) :
    lowered = lowerAsciiText text
      ∨ ((∃ d ∈ lowered, ¬IsPlain d) ∧ ∃ d ∈ lowerAsciiText text, ¬IsPlain d) := by
  induction h with
  | nil => exact .inl rfl
  | cons head _ ih =>
    rw [lowerAsciiText_cons]
    rcases head.eq_or_not_plain with rfl | ⟨⟨d, hd, hplain⟩, hascii⟩
    · rcases ih with rfl | ⟨⟨d, hd, hplain⟩, e, he, hascii⟩
      · exact .inl rfl
      · exact .inr ⟨⟨d, List.mem_append_right _ hd, hplain⟩, e, List.mem_cons_of_mem _ he, hascii⟩
    · exact .inr ⟨⟨d, List.mem_append_left _ hd, hplain⟩, _, List.mem_cons_self .., hascii⟩

end Beatmap.Text
