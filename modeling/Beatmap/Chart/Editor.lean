import Beatmap.Chart.Setting

/-! # The editor section -/

namespace Beatmap

open Beatmap.Number

/-- The settings of the section `[Editor]` with their defaults. -/
structure Editor where
  /-- Bookmarked offsets in milliseconds. -/
  bookmarks : List Int32 := []
  distanceSpacing : Double := .ofRatio false 1 1
  beatDivisor : Int32 := 4
  gridSize : Int32 := 4
  timelineZoom : Double := .ofRatio false 1 1
  deriving DecidableEq

namespace Editor

open Setting

/-- The keys of the section. -/
def settings : List (Setting Editor) := [
  Setting.bookmarks "Bookmarks" (·.bookmarks) fun v e => { e with bookmarks := v },
  double "DistanceSpacing" (·.distanceSpacing) fun v e => { e with distanceSpacing := v },
  integer "BeatDivisor" (·.beatDivisor) fun v e => { e with beatDivisor := v },
  integer "GridSize" (·.gridSize) fun v e => { e with gridSize := v },
  double "TimelineZoom" (·.timelineZoom) fun v e => { e with timelineZoom := v }]

/-- Parses a line of the section. -/
def read (line : List Char) : Reading (Editor → Editor) := readSetting settings line

end Editor

end Beatmap
