import Beatmap.Proofs.Run

/-!
# Sections as folds over their lines

A chart has one component for each section (`Chart.content`), and a statement changes only the
component of its own section (`content_state`). The component of a section after a whole file is
therefore a fold over the lines of content that the section governs (`content_feedAll`). The
theorems on settings, records and events are instances of this.
-/

namespace Beatmap

open Beatmap.Text

/-- The component of a chart for a section. -/
def Section.Content : Section → Type
  | .general => General
  | .editor => Editor
  | .metadata => Metadata
  | .difficulty => Difficulty
  | .events => Events
  | .timingPoints => Array TimingPoint
  | .colours => Array Colour
  | .hitObjects => Array HitObject
  | .preamble | .unknown => Unit

/-- The component of a given chart for a section. -/
def Chart.content (chart : Chart) : (area : Section) → area.Content
  | .general => chart.general
  | .editor => chart.editor
  | .metadata => chart.metadata
  | .difficulty => chart.difficulty
  | .events => chart.events
  | .timingPoints => chart.timingPoints
  | .colours => chart.comboColours
  | .hitObjects => chart.hitObjects
  | .preamble | .unknown => ()

/-- The section of a statement. -/
def Statement.area : Statement → Section
  | .general _ => .general
  | .editor _ => .editor
  | .metadata _ => .metadata
  | .difficulty _ => .difficulty
  | .event _ => .events
  | .timingPoint _ => .timingPoints
  | .comboColour _ => .colours
  | .hitObject _ => .hitObjects

theorem Statement.area_of_read {area : Section} {line : List Char} {s : Statement}
    (h : (read area line).value = some s) : s.area = area := by
  cases area <;> simp only [read, Reading.map, Reading.refused, Reading.silent,
    Option.map_eq_some_iff, reduceCtorEq] at h <;> obtain ⟨_, _, rfl⟩ := h <;> rfl

namespace Section

/-- The effect of a statement on a component; the identity for statements of other sections. -/
def apply : (area : Section) → Statement → area.Content → area.Content
  | .general, .general change, content => change content
  | .editor, .editor change, content => change content
  | .metadata, .metadata change, content => change content
  | .difficulty, .difficulty change, content => change content
  | .events, .event event, content => Events.add content event
  | .timingPoints, .timingPoint point, content => Array.push content point
  | .colours, .comboColour colour, content => Array.push content colour
  | .hitObjects, .hitObject object, content => Array.push content object
  | _, _, content => content

/-- The effect of a line on the component of its section. -/
def step (area : Section) (line : List Char) (content : area.Content) : area.Content :=
  match (Statement.read area line).value with
  | some statement => area.apply statement content
  | none => content

theorem apply_of_ne {area : Section} {statement : Statement} (h : statement.area ≠ area)
    (content : area.Content) : area.apply statement content = content := by
  cases area <;> cases statement <;> first | rfl | exact absurd rfl h

end Section

namespace Chart

/-- A statement changes only the component of its section. -/
theorem content_state (chart : Chart) (statement : Statement) (area : Section) :
    (chart.state statement).content area = area.apply statement (chart.content area) := by
  cases area <;> cases statement <;> rfl

theorem content_version (chart : Chart) (version : Int32) (area : Section) :
    { chart with formatVersion := version }.content area = chart.content area := by
  cases area <;> rfl

theorem content_withMetrics (chart : Chart) (area : Section) :
    chart.withMetrics.content area = chart.content area := by
  cases area <;> rfl

/-- The effect of a parsed line on the component of its section. -/
theorem content_take (chart : Chart) (area : Section) (line : List Char) :
    (chart.take (Statement.read area line)).content area = area.step line (chart.content area) := by
  unfold take Section.step
  cases (Statement.read area line).value with
  | none => rfl
  | some statement => exact chart.content_state statement area

/-- A line does not change the components of other sections. -/
theorem content_take_of_ne (chart : Chart) {area other : Section} (h : area ≠ other)
    (line : List Char) :
    (chart.take (Statement.read area line)).content other = chart.content other := by
  unfold take
  split
  next statement hs =>
    have hother : statement.area ≠ other := by
      rw [Statement.area_of_read hs]
      exact h
    rw [content_state, Section.apply_of_ne hother]
  next => rfl

end Chart

/-- The component of a section after a file is the fold over the lines of content that the section
governs. -/
theorem content_feedAll (area : Section) (lines : List (List Char)) :
    (Reader.feedAll {} lines).chart.content area
      = (governedBy area lines).foldl (fun content raw => area.step (trim raw) content)
          (Chart.content {} area) := by
  induction lines using List.reverseRecOn with
  | nil => rfl
  | append_singleton lines raw ih =>
    rw [Reader.feedAll_concat, governedBy, eachInContext_concat, ← governedBy, List.foldl_append,
      ← ih]
    cases hc : isContent raw with
    | false => simp [Reader.chart_feed_other _ hc]
    | true =>
      obtain ⟨version, hchart⟩ := Reader.chart_feed_content lines hc
      rw [hchart, Chart.content_version]
      -- In every section, the line is read in that section only.
      by_cases harea : areaAfter lines = area
      · subst harea
        rw [Chart.content_take]
        simp
      · rw [Chart.content_take_of_ne _ harea]
        simp [harea]

theorem content_ofLines (area : Section) (lines : List (List Char)) :
    (Chart.ofLines lines).1.content area
      = (governedBy area lines).foldl (fun content raw => area.step (trim raw) content)
          (Chart.content {} area) := by
  rw [← content_feedAll]
  exact Chart.content_withMetrics _ area

end Beatmap
