import Beatmap.Proofs.Fields
import Beatmap.Proofs.Records
import Beatmap.Proofs.RoundTrip

/-!
# Round trip of parsed charts

A parsed chart is restored from its JSON form exactly if all its floating-point numbers are finite.
They need not be: the parser accepts `inf`, `nan` and numbers that overflow, and a tiny beat length
gives an infinite tempo. `comesBack_parse_iff` characterises the texts whose charts are restored, in
terms of their lines, and `not_comesBack_nan` gives two short texts whose charts are not.
-/

namespace Beatmap

open Text Number
open Json (Value FloatReader Style)

/-! ## Settings -/

/-- A key with a floating-point value. -/
structure FloatKey where
  area : Section
  key : String
  format : Format

namespace FloatKey

/-- All floating-point keys. -/
def all : List FloatKey := [
  ⟨.general, "StackLeniency", .single⟩,
  ⟨.editor, "DistanceSpacing", .double⟩,
  ⟨.editor, "TimelineZoom", .double⟩,
  ⟨.difficulty, "HPDrainRate", .single⟩,
  ⟨.difficulty, "CircleSize", .single⟩,
  ⟨.difficulty, "OverallDifficulty", .single⟩,
  ⟨.difficulty, "ApproachRate", .single⟩,
  ⟨.difficulty, "SliderMultiplier", .double⟩,
  ⟨.difficulty, "SliderTickRate", .double⟩]

/-- The last readable value of the key in some lines. -/
def last? (k : FloatKey) (lines : List (List Char)) : Option (Floating k.format) :=
  ((valuesOf k.area lines k.key).filterMap (readFloating k.format)).getLast?

end FloatKey

theorem isFinite_lastOf {f : Format} {values : List (List Char)} {default : Floating f}
    (h : default.isFinite = true) :
    (lastOf (readFloating f) values default).isFinite = true
      ↔ ∀ x, (values.filterMap (readFloating f)).getLast? = some x → x.isFinite = true := by
  rw [lastOf, List.getLastD_eq_getLast?]
  cases (values.filterMap (readFloating f)).getLast? with
  | none => simp [h]
  | some x => simp

/-- The floating-point numbers of the settings of a chart. -/
def Chart.settingQuantities (c : Chart) : List Quantity :=
  c.general.quantities ++ c.editor.quantities ++ c.difficulty.quantities

theorem settingQuantities_ofLines (lines : List (List Char)) :
    (Chart.ofLines lines).1.settingQuantities.all Quantity.isFinite = true
      ↔ ∀ k ∈ FloatKey.all, ∀ x, k.last? lines = some x → x.isFinite = true := by
  have hgeneral : (Chart.ofLines lines).1.general = General.ofLast (valuesOf .general lines) :=
    General.eq_ofLast fun s hs => SettingsPart.general.get_ofLines hs lines
  have heditor : (Chart.ofLines lines).1.editor = Editor.ofLast (valuesOf .editor lines) :=
    Editor.eq_ofLast fun s hs => SettingsPart.editor.get_ofLines hs lines
  have hdifficulty : (Chart.ofLines lines).1.difficulty
      = Difficulty.ofLast (valuesOf .difficulty lines) :=
    Difficulty.eq_ofLast fun s hs => SettingsPart.difficulty.get_ofLines hs lines
  rw [Chart.settingQuantities, hgeneral, heditor, hdifficulty]
  simp (disch := decide +kernel) only [General.ofLast, General.quantities, Editor.ofLast,
    Editor.quantities, Difficulty.ofLast, Difficulty.quantities, List.cons_append, List.nil_append,
    List.all_cons, List.all_nil, Quantity.isFinite, Bool.and_eq_true, isFinite_lastOf, FloatKey.all,
    FloatKey.last?, List.forall_mem_cons, List.not_mem_nil, IsEmpty.forall_iff, implies_true]

/-! ## Timing points and tempo -/

theorem timingPoints_ofLines (lines : List (List Char)) :
    ((Chart.ofLines lines).1.timingPoints.toList.flatMap TimingPoint.quantities).all
        Quantity.isFinite = true
      ↔ ∀ raw ∈ governedBy .timingPoints lines, ∀ p, (TimingPoint.read (trim raw)).value = some p
        → p.beatLength.isFinite = true := by
  have hpoints : (Chart.ofLines lines).1.timingPoints.toList
      = (governedBy .timingPoints lines).flatMap fun raw =>
        (TimingPoint.read (trim raw)).value.toList :=
          RecordPart.timingPoints.recordsOf_ofLines lines
  have hone : ∀ p : TimingPoint, p.quantities.all Quantity.isFinite = p.beatLength.isFinite := by
    intro p
    rw [TimingPoint.quantities, List.all_cons, List.all_nil, Bool.and_true]
    rfl
  rw [hpoints, List.all_flatMap]
  simp only [hone, List.all_flatMap, List.all_eq_true, Option.mem_toList]

/-- The tempo is finite exactly if there are no hit objects, no uninherited timing point, or the
tempo of the first one is finite. -/
theorem isFinite_bpm (lines : List (List Char)) :
    (Chart.ofLines lines).1.metrics.bpm.isFinite = true
      ↔ ((Chart.ofLines lines).1.hitObjects ≠ #[] → ∀ bpm,
        (Chart.ofLines lines).1.timingPoints.toList.findSome? (·.bpm) = some bpm
          → bpm.isFinite = true) := by
  have hmetrics : (Chart.ofLines lines).1.metrics
      = Metrics.compute (Chart.ofLines lines).1.general.previewTime
        (Chart.ofLines lines).1.timingPoints.toList (Chart.ofLines lines).1.hitObjects.toList := rfl
  have hzero : (Floating.zero false : Double).isFinite = true := by decide +kernel
  rw [hmetrics]
  generalize (Chart.ofLines lines).1 = chart
  cases hobjects : chart.hitObjects.toList with
  | nil =>
    have hnone : chart.hitObjects = #[] := Array.toList_eq_nil_iff.mp hobjects
    rw [Metrics.compute_nil]
    exact iff_of_true hzero fun hne => absurd hnone hne
  | cons first rest =>
    have hsome : chart.hitObjects ≠ #[] := by
      intro he
      rw [he] at hobjects
      cases hobjects
    show ((chart.timingPoints.toList.findSome? TimingPoint.bpm).getD
      (Floating.zero false)).isFinite = true ↔ _
    cases chart.timingPoints.toList.findSome? TimingPoint.bpm with
    | none => simp [hzero]
    | some bpm => simp [hsome]

/-! ## Charts -/

/-- The floating-point numbers stated by a text are finite: the last value of each key, the beat
length of every timing point, and the tempo if there are hit objects. -/
structure HasFiniteNumbers (lines : List (List Char)) : Prop where
  keys : ∀ k ∈ FloatKey.all, ∀ x, k.last? lines = some x → x.isFinite = true
  points : ∀ raw ∈ governedBy .timingPoints lines, ∀ p, (TimingPoint.read (trim raw)).value = some p
    → p.beatLength.isFinite = true
  tempo : (Chart.ofLines lines).1.hitObjects ≠ #[] → ∀ bpm,
    (Chart.ofLines lines).1.timingPoints.toList.findSome? (·.bpm) = some bpm → bpm.isFinite = true

theorem quantities_ofLines (lines : List (List Char)) :
    (Chart.ofLines lines).1.quantities.all Quantity.isFinite = true ↔ HasFiniteNumbers lines := by
  have hparts : (Chart.ofLines lines).1.quantities
      = (Chart.ofLines lines).1.settingQuantities
        ++ (Chart.ofLines lines).1.timingPoints.toList.flatMap TimingPoint.quantities
        ++ [.double (Chart.ofLines lines).1.metrics.bpm] := rfl
  rw [hparts, List.all_append, List.all_append, Bool.and_eq_true, Bool.and_eq_true,
    settingQuantities_ofLines, timingPoints_ofLines, List.all_cons, List.all_nil, Bool.and_true]
  constructor
  · rintro ⟨⟨hkeys, hpoints⟩, hbpm⟩
    exact ⟨hkeys, hpoints, (isFinite_bpm lines).mp hbpm⟩
  · intro h
    exact ⟨⟨h.keys, h.points⟩, (isFinite_bpm lines).mpr h.tempo⟩

/-- **Round trip of parsed charts.** The chart of a text is restored from its JSON form exactly if
the numbers of the text are finite; otherwise decoding fails. The decoder of floating-point numbers
is arbitrary, provided that it recovers the numbers of the chart. -/
theorem comesBack_parse_iff (text : String) (floats : FloatReader) (style : Style)
    (h : ∀ q ∈ (Chart.parse text).1.quantities, floats.Recovers q) :
    let chart := (Chart.parse text).1
    let restored := Json.fromText? (Chart.ofJson? floats) (chart.toJson.print style)
    (restored = some chart ↔ HasFiniteNumbers (linesOf text.toList))
      ∧ (restored = none ↔ ¬HasFiniteNumbers (linesOf text.toList)) := by
  intro chart restored
  have hrestored : restored
      = if chart.quantities.all Quantity.isFinite then some chart else none := by
    show Json.fromText? (Chart.ofJson? floats) (chart.toJson.print style) = _
    rw [Json.fromText?_print _ style chart.isRegular_toJson, Chart.ofJson?_toJson h]
  have hfinite : chart.quantities.all Quantity.isFinite = true
      ↔ HasFiniteNumbers (linesOf text.toList) := quantities_ofLines _
  rw [hrestored, ← hfinite]
  cases chart.quantities.all Quantity.isFinite with
  | false => simp
  | true => simp

/-- A text with a tempo that overflows but without hit objects. -/
def hasty : String := "[Difficulty]\nHPDrainRate: inf\nHPDrainRate: 7\n[TimingPoints]\n0,1e-310\n"

theorem comesBack_parse_hasty :
    Json.fromText? Chart.ofJson? ((Chart.parse hasty).1.toJson.print .lined)
      = some (Chart.parse hasty).1 := by
  refine (comesBack_parse_iff hasty Value.floating? .lined (by decide +kernel)).1.mpr ?_
  refine (quantities_ofLines (linesOf hasty.toList)).mp ?_
  decide +kernel

/-- A chart with a setting `nan`, and a chart whose beat length gives an infinite tempo. Neither is
restored. -/
theorem not_comesBack_nan :
    let lenient := (Chart.parse "osu file format v14\n\n[General]\nStackLeniency: nan\n").1
    let hasty := (Chart.parse "[TimingPoints]\n0,1e-310\n[HitObjects]\n0,0,0,1,0\n").1
    lenient.general.stackLeniency.isNaN = true
      ∧ Json.fromText? Chart.ofJson? (lenient.toJson.print .tight) = none
      ∧ hasty.metrics.bpm = .infinite false
      ∧ Json.fromText? Chart.ofJson? (hasty.toJson.print .tight) = none := by
  intro lenient hasty
  refine ⟨by decide +kernel, ?_, by decide +kernel, ?_⟩
  · rw [Json.fromText?_print _ _ lenient.isRegular_toJson, Chart.ofJson?_toJson (by decide +kernel)]
    exact if_neg (by decide +kernel)
  · rw [Json.fromText?_print _ _ hasty.isRegular_toJson, Chart.ofJson?_toJson (by decide +kernel)]
    exact if_neg (by decide +kernel)

end Beatmap
