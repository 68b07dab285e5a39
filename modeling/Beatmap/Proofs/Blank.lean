import Beatmap.Text.Blank
import Mathlib.Data.List.TakeWhile

/-!
# Properties of `trim`

A trimmed text is empty exactly if the text is blank (`trim_eq_nil_iff`), surrounding blanks do not
affect the result (`trim_pad`), and every character of the result is in the text
(`mem_of_mem_trim`).
-/

namespace Beatmap.Text

theorem trim_eq_nil_iff {text : List Char} : trim text = [] ↔ ∀ c ∈ text, isBlank c = true := by
  rw [← List.dropWhile_eq_nil_iff, ← trimStart]
  constructor
  · intro h
    obtain ⟨blanks, he, hb⟩ := trimEnd_append_blanks (trimStart text)
    rw [← trim, h, List.nil_append] at he
    cases blanks with
    | nil => exact he
    | cons c rest =>
      -- Otherwise the result of `trimStart` would start with a blank.
      have hc : isBlank c = false := head?_trimStart (by rw [he, List.head?_cons])
      rw [hb c (List.mem_cons_self ..)] at hc
      cases hc
  · intro h
    rw [trim, h]
    rfl

theorem trimEnd_append {right : List Char} (h : ∀ c ∈ right, isBlank c = true) (text : List Char) :
    trimEnd (text ++ right) = trimEnd text := by
  have hreverse : ∀ c ∈ right.reverse, isBlank c = true := by
    intro c hc
    exact h c (List.mem_reverse.mp hc)
  rw [trimEnd, List.reverse_append, List.dropWhile_append_of_pos hreverse, ← trimEnd]

theorem trim_pad {left right : List Char} (hleft : ∀ c ∈ left, isBlank c = true)
    (hright : ∀ c ∈ right, isBlank c = true) (text : List Char) :
    trim (left ++ text ++ right) = trim text := by
  have hstart : trimStart (left ++ text ++ right) = trimStart (text ++ right) := by
    rw [trimStart, List.append_assoc, List.dropWhile_append_of_pos hleft, ← trimStart]
  rw [trim, hstart, trim]
  by_cases hblank : trimStart text = []
  · -- All is white space, behind the text as well as in it.
    have htext : ∀ c ∈ text, isBlank c = true := List.dropWhile_eq_nil_iff.mp hblank
    have hall : trimStart (text ++ right) = [] := by
      rw [trimStart, List.dropWhile_append_of_pos htext]
      exact List.dropWhile_eq_nil_iff.mpr hright
    rw [hall, hblank]
  · have hkeep : trimStart (text ++ right) = trimStart text ++ right := by
      rw [trimStart, List.dropWhile_append, if_neg (by simpa [trimStart] using hblank), ← trimStart]
    rw [hkeep, trimEnd_append hright]

theorem mem_of_mem_trim {text : List Char} {c : Char} (h : c ∈ trim text) : c ∈ text := by
  obtain ⟨blanks, he, -⟩ := trimEnd_append_blanks (trimStart text)
  have hstart : c ∈ trimStart text := by
    rw [he]
    exact List.mem_append_left _ h
  exact (List.dropWhile_sublist _).subset hstart

theorem head?_trim_cons {c : Char} (h : isBlank c = false) (rest : List Char) :
    (trim (c :: rest)).head? = some c := by
  have hstart : trimStart (c :: rest) = c :: rest := by
    rw [trimStart, List.dropWhile_cons_of_neg (by simp [h])]
  have hne : trim (c :: rest) ≠ [] := by
    intro he
    rw [trim_eq_nil_iff.mp he c (List.mem_cons_self ..)] at h
    cases h
  obtain ⟨d, tail, hd⟩ := List.exists_cons_of_ne_nil hne
  have hhead : (trim (c :: rest)).head? = some d := by rw [hd, List.head?_cons]
  rw [hhead, ← head?_trimEnd hhead, hstart, List.head?_cons]

end Beatmap.Text
