import Beatmap.Proofs.Lines

/-!
# Runs of the reader

`feed` distinguishes three kinds of lines, with one equation for each: `feed_of_not_meaningful`,
`feed_of_opens` and `feed_of_content`. The later proofs use these equations instead of unfolding
`feed`. They determine, for a fresh reader and any lines, the section, the line count and the flag
(`area_feedAll`, `lineCount_feedAll`, `started_feedAll`) and the diagnostics
(`diagnostics_feedAll`). `chart_feed_content` gives the effect of a line of content on the chart; it
includes the first line of content, which precedes every header and can only set the version.
-/

namespace Beatmap

open Beatmap.Text

namespace Reader

/-! ## Single lines -/

theorem feed_of_not_meaningful (r : Reader) {raw : List Char} (h : isMeaningful raw = false) :
    r.feed raw = { r with lineCount := r.lineCount + 1 } := by
  simp only [feed, kind_of_not_meaningful h]

theorem feed_of_opens (r : Reader) {raw : List Char} {s : Section} (h : opens? raw = some s) :
    r.feed raw = { r with lineCount := r.lineCount + 1, area := s, started := true } := by
  simp only [feed, kind_of_meaningful (isMeaningful_of_opens h), h]

theorem feed_of_content (r : Reader) {raw : List Char} (h : isContent raw = true) :
    r.feed raw
      = let next := { r with lineCount := r.lineCount + 1, started := true }
        if r.started then next.readContent (trim raw) else next.readFirst (trim raw) := by
  obtain ⟨hm, ho⟩ := isContent_iff.mp h
  simp only [feed, kind_of_meaningful hm, ho]

/-- Reading content changes only the chart and the diagnostics. -/
theorem readContent_eq (r : Reader) (line : List Char) :
    r.readContent line
      = { r with
          chart := r.chart.take (Statement.read r.area line)
          diagnostics := r.diagnostics
            ++ ((Statement.read r.area line).fault.map (⟨r.lineCount, r.area, ·⟩)).toArray } := by
  unfold readContent
  cases hf : (Statement.read r.area line).fault <;> simp [hf, report]

theorem readFirst_place (r : Reader) (line : List Char) :
    (r.readFirst line).area = r.area ∧ (r.readFirst line).lineCount = r.lineCount
      ∧ (r.readFirst line).started = r.started := by
  unfold readFirst
  split
  next => exact ⟨rfl, rfl, rfl⟩
  next => exact ⟨rfl, rfl, rfl⟩
  next => rw [readContent_eq]; exact ⟨rfl, rfl, rfl⟩

theorem feed_content_place (r : Reader) {raw : List Char} (h : isContent raw = true) :
    (r.feed raw).area = r.area ∧ (r.feed raw).lineCount = r.lineCount + 1
      ∧ (r.feed raw).started = true := by
  rw [feed_of_content r h]
  dsimp only
  split
  next => rw [readContent_eq]; exact ⟨rfl, rfl, rfl⟩
  next => exact readFirst_place _ _

/-! ## The position of the reader -/

theorem feedAll_concat (r : Reader) (lines : List (List Char)) (raw : List Char) :
    r.feedAll (lines ++ [raw]) = (r.feedAll lines).feed raw := by
  simp [feedAll]

theorem lineCount_feedAll (lines : List (List Char)) :
    (feedAll {} lines).lineCount = lines.length := by
  induction lines using List.reverseRecOn with
  | nil => rfl
  | append_singleton lines raw ih =>
    have hcount : ((feedAll {} lines).feed raw).lineCount = (feedAll {} lines).lineCount + 1 := by
      rcases line_cases raw with hm | ⟨s, ho⟩ | hc
      · rw [feed_of_not_meaningful _ hm]
      · rw [feed_of_opens _ ho]
      · exact (feed_content_place _ hc).2.1
    rw [feedAll_concat, hcount, ih, List.length_append, List.length_singleton]

theorem area_feedAll (lines : List (List Char)) : (feedAll {} lines).area = areaAfter lines := by
  induction lines using List.reverseRecOn with
  | nil => rfl
  | append_singleton lines raw ih =>
    rw [feedAll_concat]
    rcases line_cases raw with hm | ⟨s, ho⟩ | hc
    · rw [feed_of_not_meaningful _ hm, areaAfter_concat_other lines (opens_of_not_meaningful hm)]
      exact ih
    · rw [feed_of_opens _ ho, areaAfter_concat_header lines ho]
    · rw [(feed_content_place _ hc).1, ih, areaAfter_concat_other lines (isContent_iff.mp hc).2]

theorem started_feedAll (lines : List (List Char)) :
    (feedAll {} lines).started = lines.any isMeaningful := by
  induction lines using List.reverseRecOn with
  | nil => rfl
  | append_singleton lines raw ih =>
    rw [feedAll_concat, List.any_append, List.any_cons, List.any_nil, Bool.or_false]
    rcases line_cases raw with hm | ⟨s, ho⟩ | hc
    · rw [feed_of_not_meaningful _ hm, hm, Bool.or_false]
      exact ih
    · rw [feed_of_opens _ ho, isMeaningful_of_opens ho, Bool.or_true]
    · rw [(feed_content_place _ hc).2.2, (isContent_iff.mp hc).1, Bool.or_true]

/-! ## Diagnostics -/

/-- The fault of a line of content, given the lines before it. -/
def faultAfter (before : List (List Char)) (raw : List Char) : Option Fault :=
  if before.any isMeaningful then (Statement.read (areaAfter before) (trim raw)).fault
  else match readVersion? (trim raw) with
    | some (.ok _) => none
    | some (.error fault) => some fault
    | none => some .orphan

/-- The diagnostic of a line, given the lines before it. -/
def diagnosticAfter (before : List (List Char)) (raw : List Char) : Option Diagnostic :=
  if isContent raw then
    (faultAfter before raw).map fun fault => ⟨before.length + 1, areaAfter before, fault⟩
  else none

theorem diagnostics_feedAll (lines : List (List Char)) :
    (feedAll {} lines).diagnostics.toList = eachInContext diagnosticAfter lines := by
  induction lines using List.reverseRecOn with
  | nil => rfl
  | append_singleton lines raw ih =>
    rw [feedAll_concat, eachInContext_concat, ← ih]
    rcases line_cases raw with hm | ⟨s, ho⟩ | hc
    · rw [feed_of_not_meaningful _ hm]
      simp [diagnosticAfter, not_isContent_of_not_meaningful hm]
    · rw [feed_of_opens _ ho]
      simp [diagnosticAfter, not_isContent_of_opens ho]
    · rw [feed_of_content _ hc, diagnosticAfter, if_pos hc, faultAfter, started_feedAll]
      dsimp only
      cases hs : lines.any isMeaningful with
      | true =>
        rw [if_pos rfl, if_pos rfl, readContent_eq]
        simp [area_feedAll, lineCount_feedAll]
      | false =>
        -- The first meaningful line is tested for a version first.
        rw [if_neg Bool.false_ne_true, if_neg Bool.false_ne_true, readFirst]
        cases hv : readVersion? (trim raw) with
        | none =>
          rw [readContent_eq]
          simp [area_feedAll, lineCount_feedAll, areaAfter_of_not_any hs, Statement.read,
            Reading.refused]
        | some version =>
          cases version with
          | ok n => simp
          | error fault => simp [report, area_feedAll, lineCount_feedAll]

/-- After the first meaningful line, the fault of a line of content is that of its section. -/
theorem diagnostics_feed {lines : List (List Char)} {raw : List Char} (h : isContent raw = true)
    (hs : lines.any isMeaningful = true) :
    ((feedAll {} lines).feed raw).diagnostics.toList
      = (feedAll {} lines).diagnostics.toList
        ++ ((Statement.read (areaAfter lines) (trim raw)).fault.map fun fault =>
          ⟨lines.length + 1, areaAfter lines, fault⟩).toList := by
  rw [← feedAll_concat, diagnostics_feedAll, diagnostics_feedAll, eachInContext_concat,
    diagnosticAfter, if_pos h, faultAfter, if_pos hs]

/-! ## Charts -/

/-- A line of content changes the chart by its statement, and may set the version. -/
theorem chart_feed_content (lines : List (List Char)) {raw : List Char} (h : isContent raw = true) :
    ∃ version, ((feedAll {} lines).feed raw).chart
      = { (feedAll {} lines).chart.take (Statement.read (areaAfter lines) (trim raw)) with
          formatVersion := version } := by
  rw [feed_of_content _ h, started_feedAll]
  dsimp only
  cases hs : lines.any isMeaningful with
  | true =>
    rw [if_pos rfl, readContent_eq, area_feedAll]
    exact ⟨_, rfl⟩
  | false =>
    -- There is no header yet, so the line can only set the version.
    rw [if_neg Bool.false_ne_true, areaAfter_of_not_any hs, readFirst]
    split
    next version _ => exact ⟨version, rfl⟩
    next => exact ⟨_, rfl⟩
    next =>
      rw [readContent_eq, area_feedAll, areaAfter_of_not_any hs]
      exact ⟨_, rfl⟩

theorem chart_feed_other (r : Reader) {raw : List Char} (h : isContent raw = false) :
    (r.feed raw).chart = r.chart := by
  rcases line_cases raw with hm | ⟨s, ho⟩ | hc
  · rw [feed_of_not_meaningful _ hm]
  · rw [feed_of_opens _ ho]
  · rw [hc] at h; cases h

end Reader

end Beatmap
