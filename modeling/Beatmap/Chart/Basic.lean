import Beatmap.Chart.Colour
import Beatmap.Chart.Difficulty
import Beatmap.Chart.Editor
import Beatmap.Chart.Event
import Beatmap.Chart.General
import Beatmap.Chart.Metadata
import Beatmap.Chart.Metrics

/-!
# Charts

A chart has one component for each section of its file. `Statement.read` parses a line of a given
section without looking at the chart, and `Chart.state` updates only the component of that section.
Lines of different sections therefore commute.
-/

namespace Beatmap

open Beatmap.Text

/-- One playable chart of a song. -/
structure Chart where
  formatVersion : Int32 := latestFormatVersion
  /-- The file that the chart was read from; set by the caller. -/
  sourceFilename : String := ""
  /-- The content hash of the file that the chart was read from; set by the caller. -/
  contentHash : String := ""
  general : General := {}
  editor : Editor := {}
  metadata : Metadata := {}
  difficulty : Difficulty := {}
  events : Events := {}
  timingPoints : Array TimingPoint := #[]
  comboColours : Array Colour := #[]
  hitObjects : Array HitObject := #[]
  metrics : Metrics := {}
  deriving DecidableEq

/-- The content of a parsed line: a setting or a record of one section. -/
inductive Statement where
  | general (change : General → General)
  | editor (change : Editor → Editor)
  | metadata (change : Metadata → Metadata)
  | difficulty (change : Difficulty → Difficulty)
  | event (event : Event)
  | timingPoint (point : TimingPoint)
  | comboColour (colour : Colour)
  | hitObject (object : HitObject)

/-- Parses a line of the section `area`. Depends on no other line and on no chart. -/
def Statement.read (area : Section) (line : List Char) : Reading Statement :=
  match area with
  | .preamble => .refused .orphan
  | .general => (General.read line).map .general
  | .editor => (Editor.read line).map .editor
  | .metadata => (Metadata.read line).map .metadata
  | .difficulty => (Difficulty.read line).map .difficulty
  | .events => (Event.read line).map .event
  | .timingPoints => (TimingPoint.read line).map .timingPoint
  | .colours => (Colour.read line).map .comboColour
  | .hitObjects => (HitObject.read line).map .hitObject
  | .unknown => .silent

namespace Chart

/-- Updates the chart by a statement: a setting changes its section, a record is appended to its
list. -/
def state (chart : Chart) : Statement → Chart
  | .general change => { chart with general := change chart.general }
  | .editor change => { chart with editor := change chart.editor }
  | .metadata change => { chart with metadata := change chart.metadata }
  | .difficulty change => { chart with difficulty := change chart.difficulty }
  | .event event => { chart with events := chart.events.add event }
  | .timingPoint point => { chart with timingPoints := chart.timingPoints.push point }
  | .comboColour colour => { chart with comboColours := chart.comboColours.push colour }
  | .hitObject object => { chart with hitObjects := chart.hitObjects.push object }

/-- Updates the chart by the value of a parsed line, if there is one. -/
def take (chart : Chart) (reading : Reading Statement) : Chart :=
  match reading.value with
  | some statement => chart.state statement
  | none => chart

/-- The chart with its metrics computed from its lines. -/
def withMetrics (chart : Chart) : Chart :=
  { chart with
    metrics := Metrics.compute chart.general.previewTime chart.timingPoints.toList
      chart.hitObjects.toList }

end Chart

end Beatmap
