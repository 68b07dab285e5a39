import Beatmap.Proofs.Faults

/-!
# Diagnostics are sound and complete

`diagnostics_exact` characterises the diagnostics of a file: their line numbers are strictly
increasing, each belongs to a line of content and names the section that governs it, and a line of
content has a diagnostic exactly if it is faulty (`IsFaulty`). The exception is the first meaningful
line, if it states the version.
-/

namespace Beatmap

open Beatmap.Text

namespace Reader

theorem diagnosticAfter_eq_some_iff {before : List (List Char)} {raw : List Char} {d : Diagnostic} :
    diagnosticAfter before raw = some d
      ↔ isContent raw = true ∧ d.line = before.length + 1 ∧ d.inSection = areaAfter before
        ∧ faultAfter before raw = some d.fault := by
  unfold diagnosticAfter
  cases hc : isContent raw with
  | false => simp
  | true =>
    rw [if_pos rfl, Option.map_eq_some_iff]
    constructor
    · intro hsome
      obtain ⟨fault, hfault, rfl⟩ := hsome
      exact ⟨rfl, rfl, rfl, hfault⟩
    · intro hsays
      obtain ⟨-, hline, hsection, hfault⟩ := hsays
      obtain ⟨line, area, fault⟩ := d
      exact ⟨fault, hfault, by rw [← hline, ← hsection]⟩

/-- A line of content yields a fault exactly if it is faulty in its section and is not a first
meaningful line that states the version. -/
theorem faultAfter_isSome_iff {before : List (List Char)} {raw : List Char} :
    (faultAfter before raw).isSome = true
      ↔ IsFaulty (areaAfter before) (trim raw)
        ∧ ¬(before.any isMeaningful = false ∧ ∃ version, StatesVersion (trim raw) version) := by
  unfold faultAfter
  cases hs : before.any isMeaningful with
  | true =>
    rw [if_pos rfl, fault_isSome_iff]
    simp
  | false =>
    have hfaulty : IsFaulty (areaAfter before) (trim raw) := by
      rw [areaAfter_of_not_any hs]
      trivial
    -- Before the first header every line is faulty unless it states the version.
    rw [if_neg Bool.false_ne_true]
    simp only [← readVersion_eq_ok_iff, hfaulty, true_and]
    cases hv : readVersion? (trim raw) with
    | none => simp
    | some version => cases version <;> simp

end Reader

/-- A list with at most one element per line has strictly increasing line numbers. -/
theorem pairwise_eachInContext {β : Type} {give : List (List Char) → List Char → Option β}
    {number : β → Nat}
    (hnumber : ∀ before raw b, give before raw = some b → number b = before.length + 1)
    (lines : List (List Char)) :
    (eachInContext give lines).Pairwise fun a b => number a < number b := by
  have hat : ∀ k b, lines[k]?.bind (give (lines.take k)) = some b → number b = k + 1 := by
    intro k b hb
    obtain ⟨raw, hraw, hgive⟩ := Option.bind_eq_some_iff.mp hb
    obtain ⟨hlt, -⟩ := List.getElem?_eq_some_iff.mp hraw
    rw [hnumber _ _ _ hgive, List.length_take_of_le (Nat.le_of_lt hlt)]
  unfold eachInContext
  apply List.Pairwise.filterMap _ _ List.pairwise_lt_range
  intro i j hij a ha b hb
  rw [hat i a ha, hat j b hb]
  omega

/-- **Diagnostics are sound and complete.** The diagnostics of a text have strictly increasing line
numbers; each belongs to a line of content and to the section that governs it; and a line of content
has a diagnostic exactly if it is faulty, unless it is the first meaningful line and states the
version. -/
theorem diagnostics_exact (text : String) :
    let lines := linesOf text.toList
    let diagnostics := (Chart.parse text).2
    (diagnostics.Pairwise fun d e => d.line < e.line)
      ∧ (∀ d ∈ diagnostics, ∃ k raw, d.line = k + 1 ∧ lines[k]? = some raw ∧ isContent raw = true
          ∧ d.inSection = areaAfter (lines.take k))
      ∧ ∀ k raw, lines[k]? = some raw → isContent raw = true →
          ((∃ d ∈ diagnostics, d.line = k + 1)
            ↔ IsFaulty (areaAfter (lines.take k)) (trim raw)
              ∧ ¬((lines.take k).any isMeaningful = false
                ∧ ∃ version, StatesVersion (trim raw) version)) := by
  intro lines diagnostics
  have hall : diagnostics = eachInContext Reader.diagnosticAfter lines :=
    Reader.diagnostics_feedAll lines
  have htake : ∀ {k : Nat} {raw : List Char}, lines[k]? = some raw → (lines.take k).length = k := by
    intro k raw hraw
    obtain ⟨hlt, -⟩ := List.getElem?_eq_some_iff.mp hraw
    exact List.length_take_of_le (Nat.le_of_lt hlt)
  refine ⟨?_, ?_, ?_⟩
  · rw [hall]
    apply pairwise_eachInContext
    intro before raw d hd
    exact (Reader.diagnosticAfter_eq_some_iff.mp hd).2.1
  · intro d hd
    rw [hall] at hd
    obtain ⟨k, raw, hraw, hgive⟩ := mem_eachInContext.mp hd
    obtain ⟨hc, hline, hsection, -⟩ := Reader.diagnosticAfter_eq_some_iff.mp hgive
    rw [htake hraw] at hline
    exact ⟨k, raw, hline, hraw, hc, hsection⟩
  · intro k raw hraw hc
    rw [← Reader.faultAfter_isSome_iff, hall]
    constructor
    · intro hsome
      obtain ⟨d, hd, hline⟩ := hsome
      obtain ⟨k', raw', hraw', hgive⟩ := mem_eachInContext.mp hd
      obtain ⟨-, hline', -, hfault⟩ := Reader.diagnosticAfter_eq_some_iff.mp hgive
      -- The number of the diagnostic tells the line it came from.
      rw [htake hraw', hline, Nat.add_right_cancel_iff] at hline'
      subst hline'
      obtain rfl : raw' = raw := Option.some.inj (hraw'.symm.trans hraw)
      rw [hfault]
      rfl
    · intro hfault
      obtain ⟨fault, hf⟩ := Option.isSome_iff_exists.mp hfault
      refine ⟨⟨k + 1, areaAfter (lines.take k), fault⟩, ?_, rfl⟩
      rw [mem_eachInContext]
      refine ⟨k, raw, hraw, Reader.diagnosticAfter_eq_some_iff.mpr ⟨hc, ?_, rfl, hf⟩⟩
      rw [htake hraw]

end Beatmap
