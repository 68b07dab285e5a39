import Beatmap.Chart.HitObject
import Beatmap.Chart.TimingPoint

/-!
# Metrics of a chart

Lengths are computed in saturating 32-bit arithmetic. All metrics of a chart without hit objects are
zero.
-/

namespace Beatmap

open Beatmap.Number

/-- Values derived from the lines of a chart. -/
structure Metrics where
  /-- The length of the chart in milliseconds, extended to the end of its preview. -/
  totalLength : Int32 := 0
  /-- The time from the first hit object to the last, in milliseconds. -/
  hitLength : Int32 := 0
  maxCombo : UInt32 := 0
  /-- The tempo of the first uninherited timing point. -/
  bpm : Double := .zero false
  deriving DecidableEq

namespace Metrics

/-- The time in milliseconds added after the last hit object. -/
def windDown : Int32 := 2000

/-- The duration of a preview in milliseconds. -/
def previewLength : Int32 := 30000

/-- Computes the metrics from the preview time, the timing points and the hit objects. -/
def compute (previewTime : Int32) (timingPoints : List TimingPoint) (hitObjects : List HitObject) :
    Metrics :=
  let offsets := hitObjects.map (·.offset)
  match offsets.min?, offsets.max? with
  | some first, some last =>
    let tail := saturatingAdd last windDown
    { totalLength :=
        if 0 < previewTime then max tail (saturatingAdd previewTime previewLength) else tail
      hitLength := saturatingSub last first
      maxCombo := (hitObjects.countP (·.countsTowardsCombo)).toUInt32
      bpm := (timingPoints.findSome? (·.bpm)).getD (.zero false) }
  | _, _ => {}

theorem compute_nil (previewTime : Int32) (timingPoints : List TimingPoint) :
    compute previewTime timingPoints [] = {} := rfl

end Metrics

end Beatmap
