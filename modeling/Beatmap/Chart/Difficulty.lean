import Beatmap.Chart.Setting

/-! # The difficulty section -/

namespace Beatmap

open Beatmap.Number

/-- The settings of the section `[Difficulty]` with their defaults. -/
structure Difficulty where
  hpDrainRate : Single := .ofRatio false 5 1
  circleSize : Single := .ofRatio false 5 1
  overallDifficulty : Single := .ofRatio false 5 1
  approachRate : Single := .ofRatio false 5 1
  sliderMultiplier : Double := .ofRatio false 7 5
  sliderTickRate : Double := .ofRatio false 1 1
  deriving DecidableEq

namespace Difficulty

open Setting

/-- The keys of the section. -/
def settings : List (Setting Difficulty) := [
  single "HPDrainRate" (·.hpDrainRate) fun v d => { d with hpDrainRate := v },
  single "CircleSize" (·.circleSize) fun v d => { d with circleSize := v },
  single "OverallDifficulty" (·.overallDifficulty) fun v d => { d with overallDifficulty := v },
  single "ApproachRate" (·.approachRate) fun v d => { d with approachRate := v },
  double "SliderMultiplier" (·.sliderMultiplier) fun v d => { d with sliderMultiplier := v },
  double "SliderTickRate" (·.sliderTickRate) fun v d => { d with sliderTickRate := v }]

/-- Parses a line of the section. -/
def read (line : List Char) : Reading (Difficulty → Difficulty) := readSetting settings line

end Difficulty

end Beatmap
