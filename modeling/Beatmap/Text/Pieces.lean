/-!
# Splitting text at a separator

`pieces sep text` lists the parts of a text between the separators, including empty ones. There is
one piece more than there are separators (`length_pieces`), and joining the pieces gives the text
back (`join_pieces`). `cutFirst` splits at the first separator only.
-/

namespace Beatmap.Text

/-- The parts of a text between the separators, in order. The list is never empty. -/
def pieces (sep : Char) (text : List Char) : List (List Char) :=
  text.foldr (fun c rest => if c = sep then [] :: rest else rest.modifyHead (c :: ·)) [[]]

/-- Joins pieces with the separator. -/
def join (sep : Char) (parts : List (List Char)) : List Char := List.intercalate [sep] parts

/-- The text before and after the first separator, if there is one. -/
def cutFirst (sep : Char) (text : List Char) : Option (List Char × List Char) :=
  match text.dropWhile (· != sep) with
  | [] => none
  | _ :: after => some (text.takeWhile (· != sep), after)

@[simp]
theorem pieces_nil (sep : Char) : pieces sep [] = [[]] := rfl

@[simp]
theorem pieces_cons_self (sep : Char) (text : List Char) :
    pieces sep (sep :: text) = [] :: pieces sep text := by
  simp [pieces]

theorem pieces_cons_of_ne {sep c : Char} (h : c ≠ sep) (text : List Char) :
    pieces sep (c :: text) = (pieces sep text).modifyHead (c :: ·) := by
  simp [pieces, h]

theorem pieces_ne_nil (sep : Char) (text : List Char) : pieces sep text ≠ [] := by
  induction text with
  | nil => simp
  | cons c r ih =>
    by_cases h : c = sep
    · subst h; simp
    · rw [pieces_cons_of_ne h]
      cases hp : pieces sep r with
      | nil => exact absurd hp ih
      | cons p ps => simp

/-- There is one piece more than there are separators. -/
theorem length_pieces (sep : Char) (text : List Char) :
    (pieces sep text).length = text.count sep + 1 := by
  induction text with
  | nil => simp
  | cons c r ih =>
    by_cases h : c = sep
    · subst h; simp [ih]
    · rw [pieces_cons_of_ne h, List.length_modifyHead, ih, List.count_cons_of_ne h]

/-- No piece contains the separator. -/
theorem not_mem_of_mem_pieces {sep : Char} {text p : List Char} (hp : p ∈ pieces sep text) :
    sep ∉ p := by
  induction text generalizing p with
  | nil => simp_all
  | cons c r ih =>
    by_cases h : c = sep
    · subst h
      rw [pieces_cons_self, List.mem_cons] at hp
      rcases hp with rfl | hp
      · simp
      · exact ih hp
    · rw [pieces_cons_of_ne h] at hp
      cases hr : pieces sep r with
      | nil => exact absurd hr (pieces_ne_nil sep r)
      | cons q qs =>
        rw [hr, List.modifyHead_cons, List.mem_cons] at hp
        rcases hp with rfl | hp
        · have := ih (p := q) (by simp [hr])
          simp [this, Ne.symm h]
        · exact ih (by simp [hr, hp])

theorem join_cons_cons (sep : Char) (p q : List Char) (ps : List (List Char)) :
    join sep (p :: q :: ps) = p ++ sep :: join sep (q :: ps) := by
  simp [join]

/-- The characters of a piece occur in the joined text. -/
theorem mem_join_of_mem {sep c : Char} {parts : List (List Char)} {p : List Char} (hp : p ∈ parts)
    (hc : c ∈ p) : c ∈ join sep parts := by
  induction parts with
  | nil => simp at hp
  | cons q rest ih =>
    cases rest with
    | nil => simp_all [join]
    | cons r rest =>
      rw [join_cons_cons, List.mem_append, List.mem_cons]
      rcases List.mem_cons.1 hp with rfl | hp
      · exact Or.inl hc
      · exact Or.inr (Or.inr (ih hp))

/-- Joining the pieces gives the text back. -/
theorem join_pieces (sep : Char) (text : List Char) : join sep (pieces sep text) = text := by
  induction text with
  | nil => simp [join]
  | cons c r ih =>
    cases hr : pieces sep r with
    | nil => exact absurd hr (pieces_ne_nil sep r)
    | cons q qs =>
      rw [hr] at ih
      by_cases h : c = sep
      · subst h
        rw [pieces_cons_self, hr, join_cons_cons, ih]; rfl
      · rw [pieces_cons_of_ne h, hr, List.modifyHead_cons]
        cases qs with
        | nil => simpa [join] using ih
        | cons t ts =>
          rw [join_cons_cons] at ih ⊢
          simp [ih]

/-- A text without the separator is its only piece. -/
theorem pieces_eq_singleton {sep : Char} {text : List Char} (h : sep ∉ text) :
    pieces sep text = [text] := by
  induction text with
  | nil => rfl
  | cons c r ih =>
    have hc : c ≠ sep := fun e => h (by simp [e])
    rw [pieces_cons_of_ne hc, ih (fun hr => h (by simp [hr]))]
    rfl

/-- Splitting a text that starts with `p` and a separator, where `p` contains no separator. -/
theorem pieces_append_cons {sep : Char} {p : List Char} (h : sep ∉ p) (rest : List Char) :
    pieces sep (p ++ sep :: rest) = p :: pieces sep rest := by
  induction p with
  | nil => simp
  | cons c r ih =>
    have hc : c ≠ sep := fun e => h (by simp [e])
    rw [List.cons_append, pieces_cons_of_ne hc, ih (fun hr => h (by simp [hr]))]
    rfl

/-- Splitting a joined text gives the pieces back if none contains the separator. -/
theorem pieces_join {sep : Char} {parts : List (List Char)} (hne : parts ≠ [])
    (h : ∀ part ∈ parts, sep ∉ part) : pieces sep (join sep parts) = parts := by
  induction parts with
  | nil => exact absurd rfl hne
  | cons p rest ih =>
    have hp : sep ∉ p := h p (List.mem_cons_self ..)
    cases rest with
    | nil => simpa [join] using pieces_eq_singleton hp
    | cons q rest =>
      rw [join_cons_cons, pieces_append_cons hp,
        ih (by simp) fun part hm => h part (List.mem_cons_of_mem _ hm)]

/-- `cutFirst` fails exactly on texts without the separator. -/
theorem cutFirst_eq_none_iff {sep : Char} {text : List Char} :
    cutFirst sep text = none ↔ sep ∉ text := by
  induction text with
  | nil => simp [cutFirst]
  | cons c r ih =>
    by_cases h : c = sep
    · subst h; simp [cutFirst]
    · have hs : sep ≠ c := Ne.symm h
      simp only [cutFirst, bne_iff_ne, ne_eq, h, not_false_eq_true, List.dropWhile_cons_of_pos,
        List.mem_cons, hs, false_or] at ih ⊢
      rw [← ih]
      split <;> simp_all

/-- The two parts of a cut, joined by the separator, are the text. -/
theorem eq_of_cutFirst {sep : Char} {text a b : List Char}
    (h : cutFirst sep text = some (a, b)) :
    text = a ++ sep :: b ∧ sep ∉ a := by
  induction text generalizing a with
  | nil => simp [cutFirst] at h
  | cons c r ih =>
    by_cases hc : c = sep
    · subst hc
      simp only [cutFirst, bne_self_eq_false, Bool.false_eq_true, not_false_eq_true,
        List.dropWhile_cons_of_neg, List.takeWhile_cons_of_neg, Option.some.injEq,
        Prod.mk.injEq] at h
      simp [← h.1, ← h.2]
    · have hc' : (c != sep) = true := by simp [hc]
      simp only [cutFirst, hc', List.dropWhile_cons_of_pos, List.takeWhile_cons_of_pos] at h
      cases hd : r.dropWhile (· != sep) with
      | nil => simp [hd] at h
      | cons d rest =>
        simp only [hd, Option.some.injEq, Prod.mk.injEq] at h
        have := ih (a := r.takeWhile (· != sep)) (by simp [cutFirst, hd, h.2])
        rw [← h.1]
        refine ⟨by rw [List.cons_append, ← this.1], ?_⟩
        simp only [List.mem_cons, not_or]
        exact ⟨Ne.symm hc, this.2⟩

end Beatmap.Text
