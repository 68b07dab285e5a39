import Beatmap.Text.Ranges

/-!
# White space

A character is blank if it has the Unicode property White_Space. `trim` removes the blanks at both
ends. Its result neither starts nor ends with a blank (`head?_trim`, `getLast?_trim`), so trimming
is idempotent (`trim_trim`).
-/

namespace Beatmap.Text

/-- The code points with the property White_Space. -/
def blankRanges : Ranges :=
  [(0x09, 0x0D), (0x20, 0x20), (0x85, 0x85), (0xA0, 0xA0), (0x1680, 0x1680), (0x2000, 0x200A),
    (0x2028, 0x2029), (0x202F, 0x202F), (0x205F, 0x205F), (0x3000, 0x3000)]

/-- Whether `c` is white space. -/
def isBlank (c : Char) : Bool := blankRanges.contains c

example : blankRanges.Ascending := by decide

/-- Drops leading blanks. -/
def trimStart (text : List Char) : List Char := text.dropWhile isBlank

/-- Drops trailing blanks. -/
def trimEnd (text : List Char) : List Char := (text.reverse.dropWhile isBlank).reverse

/-- Drops leading and trailing blanks. -/
def trim (text : List Char) : List Char := trimEnd (trimStart text)

theorem dropWhile_eq_self_iff {α : Type} {p : α → Bool} {l : List α} :
    l.dropWhile p = l ↔ ∀ a, l.head? = some a → p a = false := by
  cases l with
  | nil => simp
  | cons a r =>
    cases h : p a with
    | true =>
      simp only [List.dropWhile_cons, h, if_true, List.head?_cons, Option.some.injEq, forall_eq',
        Bool.true_eq_false, iff_false]
      intro he
      have hl := congrArg List.length he
      have := (List.dropWhile_sublist p (l := r)).length_le
      simp at hl
      omega
    | false => simp [h]

theorem head?_dropWhile_not {α : Type} {p : α → Bool} {l : List α} {a : α}
    (h : (l.dropWhile p).head? = some a) : p a = false := by
  induction l with
  | nil => simp at h
  | cons b r ih =>
    rw [List.dropWhile_cons] at h
    split at h
    · exact ih h
    · simp_all

theorem head?_trimStart {text : List Char} {c : Char} (h : (trimStart text).head? = some c) :
    isBlank c = false :=
  head?_dropWhile_not h

theorem getLast?_trimEnd {text : List Char} {c : Char} (h : (trimEnd text).getLast? = some c) :
    isBlank c = false := by
  rw [trimEnd, List.getLast?_reverse] at h
  exact head?_dropWhile_not h

/-- A text is its trimmed form followed by blanks. -/
theorem trimEnd_append_blanks (text : List Char) :
    ∃ blanks, text = trimEnd text ++ blanks ∧ ∀ c ∈ blanks, isBlank c = true := by
  refine ⟨(text.reverse.takeWhile isBlank).reverse, ?_, ?_⟩
  · rw [trimEnd, ← List.reverse_append, List.takeWhile_append_dropWhile, List.reverse_reverse]
  · intro c hc
    rw [List.mem_reverse] at hc
    exact List.all_eq_true.mp List.all_takeWhile c hc

/-- `trimEnd` keeps the first character of a text that is not blank. -/
theorem head?_trimEnd {text : List Char} {c : Char} (h : (trimEnd text).head? = some c) :
    text.head? = some c := by
  obtain ⟨blanks, he, -⟩ := trimEnd_append_blanks text
  rw [he, List.head?_append, h, Option.some_or]

/-- A trimmed text does not start with a blank. -/
theorem head?_trim {text : List Char} {c : Char} (h : (trim text).head? = some c) :
    isBlank c = false :=
  head?_trimStart (head?_trimEnd h)

/-- A trimmed text does not end with a blank. -/
theorem getLast?_trim {text : List Char} {c : Char} (h : (trim text).getLast? = some c) :
    isBlank c = false :=
  getLast?_trimEnd h

/-- A text without blanks at its ends is unchanged by `trim`. -/
theorem trim_eq_self {text : List Char} (hs : ∀ c, text.head? = some c → isBlank c = false)
    (he : ∀ c, text.getLast? = some c → isBlank c = false) : trim text = text := by
  have h₁ : trimStart text = text := dropWhile_eq_self_iff.mpr hs
  rw [trim, h₁, trimEnd, dropWhile_eq_self_iff.mpr, List.reverse_reverse]
  intro c hc
  exact he c (by rwa [List.head?_reverse] at hc)

theorem trim_trim (text : List Char) : trim (trim text) = trim text :=
  trim_eq_self (fun _ => head?_trim) (fun _ => getLast?_trim)

end Beatmap.Text
