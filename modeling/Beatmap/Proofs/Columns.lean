import Beatmap.Proofs.Blank
import Beatmap.Proofs.Faults
import Beatmap.Proofs.Literals
import Beatmap.Proofs.Pieces

/-!
# Comma-separated lines

Lines of timing points and hit objects consist of comma-separated fields. Such a line is content if
its first character is not that of a comment or header (`isContent_of_head?`). Trimming the line
changes neither the separated fields (`field?_trim`) nor, given its first and last characters, the
line itself (`trim_join_concat`). `writeInt32` prints an integer so that it is read back as the same
integer (`readInt32_writeInt32`).
-/

namespace Beatmap

open Beatmap.Text Beatmap.Number
open Beatmap.Json (isDigit_of_mem_digitsOf digitsOf_ne_nil digitsValue_digitsOf)
open Beatmap.Json.Value (digitsOf)

/-! ## Lines -/

/-- A line that starts with another character than a slash or a bracket is neither a comment nor a
header. -/
theorem isContent_of_head? {raw : List Char} {c : Char} (h : raw.head? = some c)
    (hblank : isBlank c = false) (hslash : c ≠ '/') (hbracket : c ≠ '[') :
    isContent raw = true := by
  obtain ⟨rest, rfl⟩ : ∃ rest, raw = c :: rest := by
    cases raw with
    | nil => cases h
    | cons d rest =>
      cases h
      exact ⟨rest, rfl⟩
  have hhead := head?_trim_cons hblank rest
  rw [isContent_iff]
  constructor
  · unfold isMeaningful
    cases hl : trim (c :: rest) with
    | nil =>
      rw [hl] at hhead
      cases hhead
    | cons d tail =>
      rw [hl, List.head?_cons, Option.some.injEq] at hhead
      subst hhead
      simp [List.isPrefixOf, Ne.symm hslash]
  · cases ho : opens? (c :: rest) with
    | none => rfl
    | some s =>
      have hopen := Section.head?_of_ofHeader? ho
      rw [hhead, Option.some.injEq] at hopen
      exact absurd hopen hbracket

/-- A joined text ends like its last part, if the separator is not blank. -/
theorem getLast?_join_concat {sep : Char} (hsep : isBlank sep = false) (parts : List (List Char))
    (last : List Char) :
    (∀ c, (join sep (parts ++ [last])).getLast? = some c → isBlank c = false)
      ↔ ∀ c, last.getLast? = some c → isBlank c = false := by
  by_cases hp : parts = []
  · subst hp
    simp [join]
  · rw [join_append sep hp (by simp)]
    have hlast : join sep [last] = last := by simp [join]
    rw [hlast, List.getLast?_append, List.getLast?_cons]
    cases last.getLast? with
    | none => simp [hsep]
    | some c => simp

/-- A joined text starts with the first character of its first part. -/
theorem head?_join_cons {sep c : Char} {first : List Char} (h : first.head? = some c)
    (rest : List (List Char)) : (join sep (first :: rest)).head? = some c := by
  cases rest with
  | nil => simpa [join] using h
  | cons second rest => rw [join_cons_cons, List.head?_append, h, Option.some_or]

/-- A joined line is unchanged by `trim` if it starts with a character that is not blank and its
last part ends with one. -/
theorem trim_join_concat {sep : Char} (hsep : isBlank sep = false) (parts : List (List Char))
    {last : List Char}
    (hs : ∀ c, (join sep (parts ++ [last])).head? = some c → isBlank c = false)
    (he : ∀ c, last.getLast? = some c → isBlank c = false) :
    trim (join sep (parts ++ [last])) = join sep (parts ++ [last]) :=
  trim_eq_self hs ((getLast?_join_concat hsep parts last).mpr he)

/-- The lines of a text followed by a newline and another text. -/
theorem linesOf_append (text rest : List Char) :
    linesOf (text ++ '\n' :: rest) = linesOf text ++ pieces '\n' rest := by
  cases text with
  | nil => rfl
  | cons c text =>
    by_cases hc : c = '\ufeff'
    · subst hc
      exact pieces_append '\n' text rest
    · have hmark : ∀ more, linesOf (c :: more) = pieces '\n' (c :: more) := by
        intro more
        exact linesOf_eq_pieces (by simpa using hc)
      rw [List.cons_append, hmark, hmark, ← List.cons_append, pieces_append]

/-! ## Fields and blanks -/

/-- A blank in front of a text belongs to its first piece. -/
theorem map_trim_pieces_cons {sep c : Char} (hc : isBlank c = true) (hsep : isBlank sep = false)
    (text : List Char) :
    (pieces sep (c :: text)).map trim = (pieces sep text).map trim := by
  have hne : c ≠ sep := by
    rintro rfl
    rw [hc] at hsep
    cases hsep
  rw [pieces_cons_of_ne hne]
  cases pieces sep text with
  | nil => rfl
  | cons first rest =>
    have hfirst : trim (c :: first) = trim first := by
      rw [trim, trimStart, List.dropWhile_cons_of_pos hc]
      rfl
    rw [List.modifyHead_cons, List.map_cons, hfirst, List.map_cons]

/-- A text without the separator is appended to the last piece. -/
theorem pieces_append_of_not_mem {sep : Char} {right : List Char} (h : sep ∉ right)
    (text : List Char) : ∃ init last, pieces sep text = init ++ [last]
      ∧ pieces sep (text ++ right) = init ++ [last ++ right] := by
  obtain ⟨init, last, htext⟩ := List.eq_nil_or_concat'
    (pieces sep text) |>.resolve_left (pieces_ne_nil sep text)
  have hparts : ∀ part ∈ init ++ [last ++ right], sep ∉ part := by
    intro part hpart
    rcases List.mem_append.mp hpart with hinit | hlast
    · exact not_mem_of_mem_pieces (htext ▸ List.mem_append_left _ hinit)
    · have hin : sep ∉ last :=
        not_mem_of_mem_pieces (htext ▸ List.mem_append_right _ (List.mem_singleton_self _))
      rw [List.mem_singleton.mp hlast, List.mem_append]
      rintro (hm | hm)
      · exact hin hm
      · exact h hm
  refine ⟨init, last, htext, ?_⟩
  have hjoin : text ++ right = join sep (init ++ [last ++ right]) := by
    rw [← join_pieces sep text, htext]
    by_cases hinit : init = []
    · subst hinit
      simp [join]
    · rw [join_append sep hinit (by simp), join_append sep hinit (by simp)]
      simp [join]
  rw [hjoin, pieces_join (by simp) hparts]

/-- Trimming a line does not change its trimmed pieces. -/
theorem map_trim_pieces_trim {sep : Char} (hsep : isBlank sep = false) (text : List Char) :
    (pieces sep (trim text)).map trim = (pieces sep text).map trim := by
  have hstart : (pieces sep (trimStart text)).map trim = (pieces sep text).map trim := by
    induction text with
    | nil => rfl
    | cons c text ih =>
      by_cases hc : isBlank c = true
      · rw [map_trim_pieces_cons hc hsep, ← ih, trimStart, List.dropWhile_cons_of_pos hc,
        ← trimStart]
      · rw [trimStart, List.dropWhile_cons_of_neg hc]
  obtain ⟨blanks, htext, hblanks⟩ := trimEnd_append_blanks (trimStart text)
  have hnot : sep ∉ blanks := by
    intro hm
    rw [hblanks sep hm] at hsep
    cases hsep
  obtain ⟨init, last, hpieces, happend⟩ := pieces_append_of_not_mem hnot (trim text)
  have hlast : trim (last ++ blanks) = trim last := by
    have hnone : ∀ c ∈ ([] : List Char), isBlank c = true := by simp
    exact trim_pad hnone hblanks last
  rw [← hstart]
  conv_rhs => rw [htext]
  show _ = (pieces sep (trim text ++ blanks)).map trim
  rw [happend, hpieces, List.map_append, List.map_append, List.map_singleton, List.map_singleton,
    hlast]

theorem field?_trim (line : List Char) (n : Nat) : field? (trim line) n = field? line n := by
  rw [field?, field?, ← List.getElem?_map, ← List.getElem?_map, map_trim_pieces_trim (by decide)]

/-! ## Integers -/

/-- The decimal representation of a 32-bit integer. -/
def writeInt32 (n : Int32) : List Char := (toString n.toInt).toList

theorem writeInt32_eq (n : Int32) :
    writeInt32 n
      = if 0 ≤ n.toInt then digitsOf n.toInt.toNat else '-' :: digitsOf (-n.toInt).toNat := by
  unfold writeInt32
  rw [Int.toString_eq_repr, Int.repr_eq_if]
  split
  · rw [Nat.repr_eq_ofList_toDigits, String.toList_ofList]
    rfl
  · rw [Nat.repr_eq_ofList_toDigits, String.toList_append, String.toList_ofList,
      String.toList_ofList]
    rfl

theorem mem_writeInt32 {n : Int32} {c : Char} (h : c ∈ writeInt32 n) :
    c = '-' ∨ isDigit c = true := by
  rw [writeInt32_eq] at h
  split at h
  · exact Or.inr (isDigit_of_mem_digitsOf h)
  · rcases List.mem_cons.mp h with rfl | h
    · exact Or.inl rfl
    · exact Or.inr (isDigit_of_mem_digitsOf h)

theorem writeInt32_ne_nil (n : Int32) : writeInt32 n ≠ [] := by
  rw [writeInt32_eq]
  split
  · exact digitsOf_ne_nil _
  · simp

theorem isBlank_of_isDigit {c : Char} (h : isDigit c = true) : isBlank c = false := by
  simp only [isDigit, Bool.and_eq_true, decide_eq_true_eq] at h
  have hlow : 48 ≤ c.toNat := h.1
  have hhigh : c.toNat ≤ 57 := h.2
  rw [← Bool.not_eq_true, isBlank, Ranges.contains_iff]
  rintro ⟨range, hmem, hrange⟩
  simp only [blankRanges, List.mem_cons, List.not_mem_nil, or_false] at hmem
  rcases hmem with rfl | rfl | rfl | rfl | rfl | rfl | rfl | rfl | rfl | rfl <;> omega

theorem isBlank_of_mem_writeInt32 {n : Int32} {c : Char} (h : c ∈ writeInt32 n) :
    isBlank c = false := by
  rcases mem_writeInt32 h with rfl | hdigit
  · decide
  · exact isBlank_of_isDigit hdigit

/-- The characters of a printed integer are digits and a minus sign. -/
theorem not_mem_writeInt32 {c : Char} (hsign : c ≠ '-') (hdigit : isDigit c = false) (n : Int32) :
    c ∉ writeInt32 n := by
  intro hc
  rcases mem_writeInt32 hc with rfl | h
  · exact hsign rfl
  · rw [h] at hdigit
    cases hdigit

theorem readNat_digitsOf (n : Nat) : readNat (digitsOf n) = some n := by
  have hdigits : (digitsOf n).all isDigit = true :=
    List.all_eq_true.mpr fun _ hc => isDigit_of_mem_digitsOf hc
  have hne : (digitsOf n).isEmpty = false := by simpa using digitsOf_ne_nil n
  rw [readNat, hdigits, hne, digitsValue_digitsOf]
  rfl

/-- A digit string has no sign. -/
theorem readSign_digitsOf (n : Nat) : readSign (digitsOf n) = (false, digitsOf n) := by
  unfold readSign
  split
  next he =>
    have hdigit : isDigit '-' = true := isDigit_of_mem_digitsOf (he ▸ List.mem_cons_self ..)
    cases hdigit
  next he =>
    have hdigit : isDigit '+' = true := isDigit_of_mem_digitsOf (he ▸ List.mem_cons_self ..)
    cases hdigit
  next => rfl

/-- A printed integer is read back as that integer. -/
theorem readInt32_writeInt32 (n : Int32) : readInt32 (writeInt32 n) = some n := by
  have hread : readInt (writeInt32 n) = some n.toInt := by
    rw [writeInt32_eq]
    by_cases hn : 0 ≤ n.toInt
    · rw [if_pos hn]
      simp only [readInt, readSign_digitsOf, readNat_digitsOf]
      show some (n.toInt.toNat : Int) = _
      rw [Int.toNat_of_nonneg hn]
    · rw [if_neg hn]
      simp only [readInt, readSign, readNat_digitsOf]
      show some (-((-n.toInt).toNat : Int)) = _
      rw [Int.toNat_of_nonneg (by omega), Int.neg_neg]
  have hfits : fitsInt32 n.toInt = true := by
    have hlow := n.le_toInt
    have hhigh := n.toInt_lt
    simp only [fitsInt32, Bool.and_eq_true, decide_eq_true_eq]
    omega
  rw [readInt32, hread, Option.bind_some, if_pos hfits, Int32.ofInt_toInt]

/-- A printed integer is unchanged by `trim`. -/
theorem trim_writeInt32 (n : Int32) : trim (writeInt32 n) = writeInt32 n :=
  trim_eq_self (fun _ hc => isBlank_of_mem_writeInt32 (List.mem_of_mem_head? hc))
    (fun _ hc => isBlank_of_mem_writeInt32 (List.mem_of_mem_getLast? hc))

end Beatmap
