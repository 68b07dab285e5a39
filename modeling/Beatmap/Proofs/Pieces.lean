import Beatmap.Text.Pieces

/-!
# Splitting off the first piece

A text has a first piece followed by a further one exactly if it starts with the piece and a
separator (`pieces_eq_cons_cons_iff`), and the first piece is the text before the first separator
(`eq_takeWhile_of_pieces`). `pieces_append` and `join_append` describe splitting and joining a text
that is divided at a separator.
-/

namespace Beatmap.Text

theorem pieces_append (sep : Char) (text rest : List Char) :
    pieces sep (text ++ sep :: rest) = pieces sep text ++ pieces sep rest := by
  induction text with
  | nil => simp
  | cons c text ih =>
    by_cases hc : c = sep
    · subst hc
      rw [List.cons_append, pieces_cons_self, pieces_cons_self, ih, List.cons_append]
    · rw [List.cons_append, pieces_cons_of_ne hc, pieces_cons_of_ne hc, ih]
      cases hp : pieces sep text with
      | nil => exact absurd hp (pieces_ne_nil sep text)
      | cons p ps => rfl

theorem join_append (sep : Char) {parts more : List (List Char)} (hp : parts ≠ [])
    (hm : more ≠ []) :
    join sep (parts ++ more) = join sep parts ++ sep :: join sep more := by
  obtain ⟨q, qs, rfl⟩ := List.exists_cons_of_ne_nil hm
  induction parts with
  | nil => exact absurd rfl hp
  | cons p rest ih =>
    cases rest with
    | nil => simp [join]
    | cons r rest =>
      rw [List.cons_append, List.cons_append, join_cons_cons, ← List.cons_append, ih (by simp),
        join_cons_cons, List.append_assoc, List.cons_append]

theorem not_mem_join {sep c : Char} {parts : List (List Char)} (hc : c ≠ sep)
    (h : ∀ part ∈ parts, c ∉ part) : c ∉ join sep parts := by
  induction parts with
  | nil => simp [join]
  | cons first rest ih =>
    have hfirst : c ∉ first := h first (List.mem_cons_self ..)
    cases rest with
    | nil => simpa [join] using hfirst
    | cons second rest =>
      rw [join_cons_cons, List.mem_append, List.mem_cons]
      rintro (hm | rfl | hm)
      · exact hfirst hm
      · exact hc rfl
      · exact ih (fun part hp => h part (List.mem_cons_of_mem _ hp)) hm

theorem pieces_eq_cons_cons_iff {sep : Char} {text p q : List Char} {ps : List (List Char)} :
    pieces sep text = p :: q :: ps
      ↔ sep ∉ p ∧ ∃ rest, text = p ++ sep :: rest ∧ pieces sep rest = q :: ps := by
  constructor
  · intro h
    have hmem : p ∈ pieces sep text := h ▸ List.mem_cons_self ..
    have hp : sep ∉ p := not_mem_of_mem_pieces hmem
    have htext : text = p ++ sep :: join sep (q :: ps) := by
      rw [← join_cons_cons, ← h, join_pieces]
    refine ⟨hp, join sep (q :: ps), htext, ?_⟩
    rw [htext, pieces_append_cons hp] at h
    exact (List.cons.injEq _ _ _ _ ▸ h).2
  · intro hcut
    obtain ⟨hp, rest, rfl, hrest⟩ := hcut
    rw [pieces_append_cons hp, hrest]

theorem eq_takeWhile_of_pieces {sep : Char} {text p : List Char} {ps : List (List Char)}
    (h : pieces sep text = p :: ps) : p = text.takeWhile (· != sep) := by
  induction text generalizing p ps with
  | nil =>
    rw [pieces_nil, List.cons.injEq] at h
    exact h.1.symm
  | cons c rest ih =>
    by_cases hc : c = sep
    · subst hc
      rw [pieces_cons_self, List.cons.injEq] at h
      simp [← h.1]
    · rw [pieces_cons_of_ne hc] at h
      cases hr : pieces sep rest with
      | nil => exact absurd hr (pieces_ne_nil sep rest)
      | cons q qs =>
        rw [hr, List.modifyHead_cons, List.cons.injEq] at h
        rw [← h.1, ih hr, List.takeWhile_cons_of_pos (by simpa using hc)]

/-- A text starts with `p` and a separator exactly if `p` is its first piece and it has a further
one. -/
theorem isPrefix_iff_pieces {sep : Char} {text p : List Char} (hp : sep ∉ p) :
    p ++ [sep] <+: text ↔ ∃ q ps, pieces sep text = p :: q :: ps := by
  constructor
  · intro hstarts
    obtain ⟨rest, rfl⟩ := hstarts
    rw [List.append_assoc, List.singleton_append, pieces_append_cons hp]
    cases hr : pieces sep rest with
    | nil => exact absurd hr (pieces_ne_nil sep rest)
    | cons q ps => exact ⟨q, ps, rfl⟩
  · intro hpieces
    obtain ⟨q, ps, h⟩ := hpieces
    obtain ⟨-, rest, rfl, -⟩ := pieces_eq_cons_cons_iff.mp h
    exact ⟨rest, by simp⟩

end Beatmap.Text
