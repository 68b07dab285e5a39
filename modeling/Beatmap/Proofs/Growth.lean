import Beatmap.Proofs.Metrics
import Beatmap.Proofs.Layout

/-!
# Charts grow monotonically

The chart of a reader is available after every line. `ofLines_append` shows that reading further
lines only extends it: the lists of records and the diagnostics are prefixes of the later ones, and
`n` further lines add at most `n` records and `n` diagnostics. The version is fixed by the first
meaningful line. The time from the first hit object to the last never decreases, nor does the combo
as long as the number of hit objects fits 32 bits.

`Reader.growsBy_feed` is the statement for one line, derived from the effect of a statement on a
chart, and `Reader.growsBy_feedAll` follows by induction. The metrics are monotone in the hit
objects (`Metrics.hitLength_mono`, `Metrics.maxCombo_mono`).
-/

namespace Beatmap

open Beatmap.Text

/-! ## Records -/

/-- The total length of the four lists of records. -/
def Chart.recordCount (c : Chart) : Nat :=
  c.timingPoints.size + c.hitObjects.size + c.events.breaks.size + c.comboColours.size

/-- The records of the second chart extend those of the first by at most `n` elements. -/
structure Chart.GrowsBy (n : Nat) (c c' : Chart) : Prop where
  timingPoints : c.timingPoints.toList <+: c'.timingPoints.toList
  hitObjects : c.hitObjects.toList <+: c'.hitObjects.toList
  breaks : c.events.breaks.toList <+: c'.events.breaks.toList
  comboColours : c.comboColours.toList <+: c'.comboColours.toList
  recordCount : c'.recordCount ≤ c.recordCount + n

namespace Chart

/-- A change of settings adds no records. -/
theorem growsBy_of_eq {n : Nat} {c c' : Chart} (hpoints : c'.timingPoints = c.timingPoints)
    (hobjects : c'.hitObjects = c.hitObjects) (hbreaks : c'.events.breaks = c.events.breaks)
    (hcolours : c'.comboColours = c.comboColours) : c.GrowsBy n c' where
  timingPoints := hpoints ▸ List.prefix_rfl
  hitObjects := hobjects ▸ List.prefix_rfl
  breaks := hbreaks ▸ List.prefix_rfl
  comboColours := hcolours ▸ List.prefix_rfl
  recordCount := by
    rw [recordCount, hpoints, hobjects, hbreaks, hcolours, ← recordCount]
    exact Nat.le_add_right _ _

theorem GrowsBy.refl (n : Nat) (c : Chart) : c.GrowsBy n c := growsBy_of_eq rfl rfl rfl rfl

theorem GrowsBy.trans {n m : Nat} {c c' c'' : Chart} (h : c.GrowsBy n c') (h' : c'.GrowsBy m c'') :
    c.GrowsBy (n + m) c'' where
  timingPoints := h.timingPoints.trans h'.timingPoints
  hitObjects := h.hitObjects.trans h'.hitObjects
  breaks := h.breaks.trans h'.breaks
  comboColours := h.comboColours.trans h'.comboColours
  recordCount := by
    have hfirst := h.recordCount
    have hsecond := h'.recordCount
    omega

theorem toList_isPrefix_push {α : Type} (records : Array α) (record : α) :
    records.toList <+: (records.push record).toList := by
  rw [Array.toList_push]
  exact List.prefix_append _ _

/-- A statement adds at most one record. -/
theorem growsBy_state (c : Chart) (s : Statement) : c.GrowsBy 1 (c.state s) := by
  cases s with
  | general change => exact growsBy_of_eq rfl rfl rfl rfl
  | editor change => exact growsBy_of_eq rfl rfl rfl rfl
  | metadata change => exact growsBy_of_eq rfl rfl rfl rfl
  | difficulty change => exact growsBy_of_eq rfl rfl rfl rfl
  | event event =>
    cases event with
    | background filename => exact growsBy_of_eq rfl rfl rfl rfl
    | pause period =>
      refine { GrowsBy.refl 1 c with breaks := toList_isPrefix_push _ _, recordCount := ?_ }
      simp only [state, recordCount, Events.add, Array.size_push]
      omega
  | timingPoint point =>
    refine { GrowsBy.refl 1 c with timingPoints := toList_isPrefix_push _ _, recordCount := ?_ }
    simp only [state, recordCount, Array.size_push]
    omega
  | comboColour colour =>
    refine { GrowsBy.refl 1 c with comboColours := toList_isPrefix_push _ _, recordCount := ?_ }
    simp only [state, recordCount, Array.size_push]
    omega
  | hitObject object =>
    refine { GrowsBy.refl 1 c with hitObjects := toList_isPrefix_push _ _, recordCount := ?_ }
    simp only [state, recordCount, Array.size_push]
    omega

theorem growsBy_take (c : Chart) (reading : Reading Statement) : c.GrowsBy 1 (c.take reading) := by
  unfold take
  split
  next statement _ => exact c.growsBy_state statement
  next => exact .refl 1 c

end Chart

/-! ## Readers -/

namespace Reader

/-- The records and the diagnostics of the second reader extend those of the first by at most `n`
elements each. -/
structure GrowsBy (n : Nat) (r r' : Reader) : Prop where
  chart : r.chart.GrowsBy n r'.chart
  diagnostics : r.diagnostics.toList <+: r'.diagnostics.toList
  diagnosticCount : r'.diagnostics.size ≤ r.diagnostics.size + n

theorem GrowsBy.trans {n m : Nat} {r r' r'' : Reader} (h : r.GrowsBy n r') (h' : r'.GrowsBy m r'') :
    r.GrowsBy (n + m) r'' where
  chart := h.chart.trans h'.chart
  diagnostics := h.diagnostics.trans h'.diagnostics
  diagnosticCount := by
    have hfirst := h.diagnosticCount
    have hsecond := h'.diagnosticCount
    omega

/-- Readers with equal charts and diagnostics. -/
theorem growsBy_of_eq {n : Nat} {r r' : Reader} (hchart : r'.chart = r.chart)
    (hdiagnostics : r'.diagnostics = r.diagnostics) : r.GrowsBy n r' where
  chart := hchart ▸ .refl n _
  diagnostics := hdiagnostics ▸ List.prefix_rfl
  diagnosticCount := hdiagnostics ▸ Nat.le_add_right _ _

theorem growsBy_readContent (r : Reader) (line : List Char) : r.GrowsBy 1 (r.readContent line) := by
  rw [readContent_eq]
  refine ⟨r.chart.growsBy_take _, ?_, ?_⟩
  · rw [Array.toList_append]
    exact List.prefix_append _ _
  · rw [Array.size_append]
    cases (Statement.read r.area line).fault <;> simp

theorem growsBy_readFirst (r : Reader) (line : List Char) : r.GrowsBy 1 (r.readFirst line) := by
  unfold readFirst
  split
  next version _ => exact ⟨Chart.growsBy_of_eq rfl rfl rfl rfl, List.prefix_rfl, Nat.le_succ _⟩
  next fault _ =>
    refine ⟨.refl 1 _, Chart.toList_isPrefix_push _ _, ?_⟩
    rw [report, Array.size_push]
  next => exact r.growsBy_readContent line

/-- One line adds at most one record and at most one diagnostic. -/
theorem growsBy_feed (r : Reader) (raw : List Char) : r.GrowsBy 1 (r.feed raw) := by
  rcases line_cases raw with hm | ⟨s, ho⟩ | hc
  · rw [feed_of_not_meaningful _ hm]
    exact growsBy_of_eq rfl rfl
  · rw [feed_of_opens _ ho]
    exact growsBy_of_eq rfl rfl
  · rw [feed_of_content _ hc]
    -- The line count and the flag are updated before the line is read.
    have hmove : r.GrowsBy 0 { r with lineCount := r.lineCount + 1, started := true } :=
      growsBy_of_eq rfl rfl
    dsimp only
    split
    next => exact hmove.trans (growsBy_readContent _ _)
    next => exact hmove.trans (growsBy_readFirst _ _)

/-- A list of lines adds at most as many records and diagnostics as it has lines. -/
theorem growsBy_feedAll (r : Reader) (lines : List (List Char)) :
    r.GrowsBy lines.length (r.feedAll lines) := by
  induction lines generalizing r with
  | nil => exact growsBy_of_eq rfl rfl
  | cons raw rest ih =>
    rw [List.length_cons, Nat.add_comm]
    exact (r.growsBy_feed raw).trans (ih (r.feed raw))

end Reader

/-! ## Metrics -/

namespace Metrics

variable {previewTime previewTime' : Int32} {points points' : List TimingPoint}
  {objects objects' : List HitObject}

/-- The hit length is monotone in the hit objects. -/
theorem hitLength_mono (h : objects ⊆ objects') :
    (compute previewTime points objects).hitLength
      ≤ (compute previewTime' points' objects').hitLength := by
  rw [Int32.le_iff_toInt_le]
  by_cases hnone' : objects' = []
  · subst hnone'
    rw [List.subset_nil.mp h, compute_nil, compute_nil]
  · obtain ⟨first', last', hfirst', hlast', hleast', hgreatest'⟩ := exists_extent hnone'
    rw [compute_of_extent hfirst' hlast']
    have horder' : first'.toInt ≤ last'.toInt := hleast'.2 hgreatest'.1
    by_cases hnone : objects = []
    · -- There was no length before, and none is below zero.
      subst hnone
      rw [compute_nil, toInt_hitLength horder']
      show (0 : Int) ≤ _
      omega
    · obtain ⟨first, last, hfirst, hlast, hleast, hgreatest⟩ := exists_extent hnone
      rw [compute_of_extent hfirst hlast]
      have horder : first.toInt ≤ last.toInt := hleast.2 hgreatest.1
      have hmem : offsetsOf objects ⊆ offsetsOf objects' := fun n ⟨o, ho, hn⟩ => ⟨o, h ho, hn⟩
      have hearlier : first'.toInt ≤ first.toInt := hleast'.2 (hmem hleast.1)
      have hlater : last.toInt ≤ last'.toInt := hgreatest'.2 (hmem hgreatest.1)
      rw [toInt_hitLength horder, toInt_hitLength horder']
      omega

theorem maxCombo_eq (previewTime : Int32) (points : List TimingPoint) (objects : List HitObject) :
    (compute previewTime points objects).maxCombo
      = (objects.countP (·.countsTowardsCombo)).toUInt32 := by
  by_cases hnone : objects = []
  · subst hnone
    rfl
  · obtain ⟨first, last, hfirst, hlast, -, -⟩ := exists_extent hnone
    rw [compute_of_extent hfirst hlast]

/-- The maximal combo is monotone in the hit objects, if their number fits 32 bits. -/
theorem maxCombo_mono (h : objects.Sublist objects') (hfew : objects'.length < 4294967296) :
    (compute previewTime points objects).maxCombo
      ≤ (compute previewTime' points' objects').maxCombo := by
  have hmore : objects.countP (·.countsTowardsCombo) ≤ objects'.countP (·.countsTowardsCombo) :=
    h.countP_le
  have hle : objects'.countP (·.countsTowardsCombo) ≤ objects'.length := List.countP_le_length
  rw [maxCombo_eq, maxCombo_eq, UInt32.le_iff_toNat_le]
  show _ % 4294967296 ≤ _ % 4294967296
  rw [Nat.mod_eq_of_lt (by omega), Nat.mod_eq_of_lt (by omega)]
  exact hmore

end Metrics

/-! ## Charts -/

/-- The version does not change after the first meaningful line. -/
theorem formatVersion_feedAll_append {lines : List (List Char)} (h : lines.any isMeaningful = true)
    (more : List (List Char)) :
    (Reader.feedAll {} (lines ++ more)).chart.formatVersion
      = (Reader.feedAll {} lines).chart.formatVersion := by
  have hfound : (lines.find? isMeaningful).isSome = true :=
    List.find?_isSome.mpr (List.any_eq_true.mp h)
  rw [formatVersion_feedAll, formatVersion_feedAll, List.find?_append, Option.or_of_isSome hfound]

/-- **Charts grow monotonically.** The records and the diagnostics after some lines are prefixes of
those after more lines, with at most one record and one diagnostic per additional line. If the
version differs, none of the first lines was meaningful. The hit length and the maximal combo do not
decrease, as long as the number of hit objects fits 32 bits. -/
theorem ofLines_append (lines more : List (List Char)) :
    let chart := (Chart.ofLines lines).1
    let diagnostics := (Chart.ofLines lines).2
    let chart' := (Chart.ofLines (lines ++ more)).1
    let diagnostics' := (Chart.ofLines (lines ++ more)).2
    (chart.timingPoints.toList <+: chart'.timingPoints.toList
        ∧ chart.hitObjects.toList <+: chart'.hitObjects.toList
        ∧ chart.events.breaks.toList <+: chart'.events.breaks.toList
        ∧ chart.comboColours.toList <+: chart'.comboColours.toList
        ∧ diagnostics <+: diagnostics')
      ∧ chart'.recordCount ≤ chart.recordCount + more.length
      ∧ diagnostics'.length ≤ diagnostics.length + more.length
      ∧ (chart'.formatVersion ≠ chart.formatVersion → ∀ raw ∈ lines, isMeaningful raw = false)
      ∧ chart.metrics.hitLength ≤ chart'.metrics.hitLength
      ∧ (chart'.hitObjects.size < 4294967296
        → chart.metrics.maxCombo ≤ chart'.metrics.maxCombo) := by
  intro chart diagnostics chart' diagnostics'
  have hgrows : (Reader.feedAll {} lines).GrowsBy more.length
      (Reader.feedAll {} (lines ++ more)) := by
    rw [Reader.feedAll_append]
    exact Reader.growsBy_feedAll _ more
  have hobjects : chart.hitObjects.toList <+: chart'.hitObjects.toList := hgrows.chart.hitObjects
  refine ⟨⟨hgrows.chart.timingPoints, hobjects, hgrows.chart.breaks, hgrows.chart.comboColours,
    hgrows.diagnostics⟩, hgrows.chart.recordCount, ?_, ?_, ?_, ?_⟩
  · exact hgrows.diagnosticCount
  · intro hversion raw hraw
    by_contra hmeaningful
    have hany : lines.any isMeaningful = true :=
      List.any_eq_true.mpr ⟨raw, hraw, by simpa using hmeaningful⟩
    exact hversion (formatVersion_feedAll_append hany more)
  · exact Metrics.hitLength_mono hobjects.subset
  · intro hfew
    exact Metrics.maxCombo_mono hobjects.sublist hfew

/-- After a blank line and a comment, the next line can still state the version. -/
theorem ofLines_append_of_late_version :
    let lines := [[], "// late".toList]
    let more := ["osu file format v9".toList, "[HitObjects]".toList, "1,1,5,1,0".toList]
    let chart := (Chart.ofLines lines).1
    let chart' := (Chart.ofLines (lines ++ more)).1
    chart'.formatVersion ≠ chart.formatVersion ∧ (∀ raw ∈ lines, isMeaningful raw = false)
      ∧ chart'.hitObjects.size < 4294967296 ∧ chart.metrics.maxCombo ≤ chart'.metrics.maxCombo := by
  intro lines more chart chart'
  obtain ⟨-, -, -, hversion, -, hcombo⟩ := ofLines_append lines more
  have hchanged : chart'.formatVersion ≠ chart.formatVersion := by decide +kernel
  have hfew : chart'.hitObjects.size < 4294967296 := by decide +kernel
  exact ⟨hchanged, hversion hchanged, hfew, hcombo hfew⟩

end Beatmap
