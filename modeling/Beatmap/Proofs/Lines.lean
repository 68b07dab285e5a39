import Beatmap.Chart.Reader
import Mathlib.Data.List.Basic
import Mathlib.Data.List.Induction

/-!
# Lines and governing sections

The state of a `Reader` other than the chart and the diagnostics is a function of the lines read so
far: the section is that of the last header (`areaAfter`), the count is the number of lines, and the
flag tells whether one of them was meaningful. The effect of a line is therefore a function of the
line and the lines before it, and the records and diagnostics of a file are lists of contributions
of its lines (`eachInContext`).

Inductions on the lines of a file proceed from the end, since the effect of a line depends on the
lines before it (`feedAll_concat`).
-/

namespace Beatmap

open Beatmap.Text

/-- The lines of a text without a byte-order mark are its pieces. -/
theorem linesOf_eq_pieces {text : List Char} (h : text.head? ≠ some '\ufeff') :
    linesOf text = pieces '\n' text := by
  unfold linesOf
  split
  next => exact absurd rfl h
  next => rfl

/-! ## Kinds of lines -/

/-- Whether a line is neither blank nor a comment. -/
def isMeaningful (raw : List Char) : Bool :=
  !(trim raw).isEmpty && !"//".toList.isPrefixOf (trim raw)

/-- The section opened by a line, if it is a header. -/
def opens? (raw : List Char) : Option Section := Section.ofHeader? (trim raw)

/-- Whether a line is content: meaningful and not a header. -/
def isContent (raw : List Char) : Bool := isMeaningful raw && (opens? raw).isNone

/-- The section after some lines: the one opened by the last header among them. -/
def areaAfter (lines : List (List Char)) : Section := (lines.filterMap opens?).getLastD .preamble

theorem kind_of_not_meaningful {raw : List Char} (h : isMeaningful raw = false) :
    LineKind.of (trim raw) = .skipped := by
  unfold isMeaningful at h
  unfold LineKind.of
  split
  next => rfl
  next => rfl
  next hne hcomment =>
    -- A line that is neither empty nor a comment is meaningful.
    exfalso
    cases hl : trim raw with
    | nil => exact hne hl
    | cons a rest =>
      rw [hl] at h
      cases rest with
      | nil => simp at h
      | cons b rest =>
        simp at h
        exact hcomment rest (by rw [hl, ← h.1, ← h.2])

theorem kind_of_meaningful {raw : List Char} (h : isMeaningful raw = true) :
    LineKind.of (trim raw)
      = match opens? raw with
        | some opened => .header opened
        | none => .content := by
  unfold isMeaningful at h
  unfold LineKind.of opens?
  split
  next hl => simp [hl] at h
  next rest hl => simp [hl] at h
  next => rfl

/-- A header is neither blank nor a comment. -/
theorem isMeaningful_of_opens {raw : List Char} {s : Section} (h : opens? raw = some s) :
    isMeaningful raw = true := by
  have hhead := Section.head?_of_ofHeader? h
  unfold isMeaningful
  cases hl : trim raw with
  | nil => rw [hl] at hhead; simp at hhead
  | cons c rest =>
    rw [hl, List.head?_cons, Option.some.injEq] at hhead
    subst hhead
    simp [List.isPrefixOf]

theorem isContent_iff {raw : List Char} :
    isContent raw = true ↔ isMeaningful raw = true ∧ opens? raw = none := by
  simp [isContent]

/-- A line is skipped, opens a section, or is content. -/
theorem line_cases (raw : List Char) :
    isMeaningful raw = false ∨ (∃ s, opens? raw = some s) ∨ isContent raw = true := by
  cases hm : isMeaningful raw with
  | false => exact Or.inl rfl
  | true =>
    cases ho : opens? raw with
    | some s => exact Or.inr (Or.inl ⟨s, rfl⟩)
    | none => exact Or.inr (Or.inr (isContent_iff.mpr ⟨hm, ho⟩))

theorem opens_of_not_meaningful {raw : List Char} (h : isMeaningful raw = false) :
    opens? raw = none := by
  cases ho : opens? raw with
  | none => rfl
  | some s => rw [isMeaningful_of_opens ho] at h; cases h

theorem not_isContent_of_opens {raw : List Char} {s : Section} (h : opens? raw = some s) :
    isContent raw = false := by
  simp [isContent, h]

theorem not_isContent_of_not_meaningful {raw : List Char} (h : isMeaningful raw = false) :
    isContent raw = false := by
  simp [isContent, h]

/-! ## Governing sections -/

theorem areaAfter_concat_header (lines : List (List Char)) {raw : List Char} {s : Section}
    (h : opens? raw = some s) : areaAfter (lines ++ [raw]) = s := by
  simp [areaAfter, List.filterMap_append, h, List.getLastD_eq_getLast?]

theorem areaAfter_concat_other (lines : List (List Char)) {raw : List Char}
    (h : opens? raw = none) : areaAfter (lines ++ [raw]) = areaAfter lines := by
  simp [areaAfter, List.filterMap_append, h]

/-- Before the first meaningful line there is no header. -/
theorem areaAfter_of_not_any {lines : List (List Char)} (h : lines.any isMeaningful = false) :
    areaAfter lines = .preamble := by
  have hnone : lines.filterMap opens? = [] := by
    rw [List.filterMap_eq_nil_iff]
    intro raw hraw
    have hm : isMeaningful raw = false := by simpa using List.any_eq_false.mp h raw hraw
    exact opens_of_not_meaningful hm
  rw [areaAfter, hnone]
  rfl

/-- After a header, a line has been meaningful. -/
theorem any_of_areaAfter_ne {lines : List (List Char)} (h : areaAfter lines ≠ .preamble) :
    lines.any isMeaningful = true := by
  rw [← Bool.not_eq_false]
  intro hnone
  exact h (areaAfter_of_not_any hnone)

/-! ## Contributions of lines -/

/-- The contributions of the lines of a file, where the contribution of a line depends on the lines
before it. -/
def eachInContext {β : Type} (give : List (List Char) → List Char → Option β)
    (lines : List (List Char)) : List β :=
  (List.range lines.length).filterMap fun k => lines[k]?.bind (give (lines.take k))

theorem eachInContext_concat {β : Type} (give : List (List Char) → List Char → Option β)
    (lines : List (List Char)) (raw : List Char) :
    eachInContext give (lines ++ [raw]) = eachInContext give lines ++ (give lines raw).toList := by
  -- The contribution of an earlier line does not depend on the last line.
  have hbefore : ∀ k ∈ List.range lines.length,
      ((lines ++ [raw])[k]?.bind (give ((lines ++ [raw]).take k)))
        = lines[k]?.bind (give (lines.take k)) := by
    intro k hk
    have hlt := List.mem_range.mp hk
    rw [List.getElem?_append_left hlt, List.take_append_of_le_length (Nat.le_of_lt hlt)]
  unfold eachInContext
  rw [List.length_append, List.length_singleton, List.range_succ, List.filterMap_append,
    List.filterMap_congr hbefore]
  congr 1
  cases hg : give lines raw <;> simp [hg]

theorem mem_eachInContext {β : Type} {give : List (List Char) → List Char → Option β}
    {lines : List (List Char)} {b : β} :
    b ∈ eachInContext give lines
      ↔ ∃ k raw, lines[k]? = some raw ∧ give (lines.take k) raw = some b := by
  simp only [eachInContext, List.mem_filterMap, List.mem_range, Option.bind_eq_some_iff]
  constructor
  · intro hgiven
    obtain ⟨k, _, raw, hraw, hgive⟩ := hgiven
    exact ⟨k, raw, hraw, hgive⟩
  · intro hgiven
    obtain ⟨k, raw, hraw, hgive⟩ := hgiven
    obtain ⟨hlt, -⟩ := List.getElem?_eq_some_iff.mp hraw
    exact ⟨k, hlt, raw, hraw, hgive⟩

/-- The lines of content governed by a section, in order. -/
def governedBy (area : Section) : List (List Char) → List (List Char) :=
  eachInContext fun before raw => if isContent raw ∧ areaAfter before = area then some raw else none

theorem mem_governedBy {area : Section} {lines : List (List Char)} {raw : List Char} :
    raw ∈ governedBy area lines
      ↔ isContent raw = true
        ∧ ∃ k : Nat, lines[k]? = some raw ∧ areaAfter (lines.take k) = area := by
  rw [governedBy, mem_eachInContext]
  constructor
  · intro hgiven
    obtain ⟨k, raw', hraw, hgive⟩ := hgiven
    split at hgive
    next h =>
      rw [Option.some.injEq] at hgive
      subst hgive
      exact ⟨h.1, k, hraw, h.2⟩
    next => cases hgive
  · intro hcontent
    obtain ⟨hc, k, hraw, harea⟩ := hcontent
    exact ⟨k, raw, hraw, if_pos ⟨hc, harea⟩⟩

end Beatmap
