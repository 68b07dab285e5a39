import Beatmap.Chart.Setting

/-! # The general section -/

namespace Beatmap

open Beatmap.Number

/-- The settings of the section `[General]` with their defaults. -/
structure General where
  audioFilename : String := ""
  audioLeadIn : Int32 := 0
  audioHash : String := ""
  /-- The offset of the preview in milliseconds, or `-1` if there is none. -/
  previewTime : Int32 := -1
  countdown : Int32 := 1
  sampleSet : String := "Normal"
  stackLeniency : Single := .ofRatio false 7 10
  /-- The game mode. -/
  mode : Int32 := 0
  letterboxInBreaks : Bool := false
  storyFireInFront : Bool := true
  useSkinSprites : Bool := false
  alwaysShowPlayfield : Bool := false
  overlayPosition : String := "NoChange"
  skinPreference : String := ""
  epilepsyWarning : Bool := false
  countdownOffset : Int32 := 0
  specialStyle : Bool := false
  widescreenStoryboard : Bool := false
  samplesMatchPlaybackRate : Bool := false
  deriving DecidableEq

namespace General

open Setting

/-- The keys of the section. -/
def settings : List (Setting General) := [
  text "AudioFilename" (·.audioFilename) fun v g => { g with audioFilename := v },
  integer "AudioLeadIn" (·.audioLeadIn) fun v g => { g with audioLeadIn := v },
  text "AudioHash" (·.audioHash) fun v g => { g with audioHash := v },
  integer "PreviewTime" (·.previewTime) fun v g => { g with previewTime := v },
  integer "Countdown" (·.countdown) fun v g => { g with countdown := v },
  text "SampleSet" (·.sampleSet) fun v g => { g with sampleSet := v },
  single "StackLeniency" (·.stackLeniency) fun v g => { g with stackLeniency := v },
  integer "Mode" (·.mode) fun v g => { g with mode := v },
  flag "LetterboxInBreaks" (·.letterboxInBreaks) fun v g => { g with letterboxInBreaks := v },
  flag "StoryFireInFront" (·.storyFireInFront) fun v g => { g with storyFireInFront := v },
  flag "UseSkinSprites" (·.useSkinSprites) fun v g => { g with useSkinSprites := v },
  flag "AlwaysShowPlayfield" (·.alwaysShowPlayfield)
    fun v g => { g with alwaysShowPlayfield := v },
  text "OverlayPosition" (·.overlayPosition) fun v g => { g with overlayPosition := v },
  text "SkinPreference" (·.skinPreference) fun v g => { g with skinPreference := v },
  flag "EpilepsyWarning" (·.epilepsyWarning) fun v g => { g with epilepsyWarning := v },
  integer "CountdownOffset" (·.countdownOffset) fun v g => { g with countdownOffset := v },
  flag "SpecialStyle" (·.specialStyle) fun v g => { g with specialStyle := v },
  flag "WidescreenStoryboard" (·.widescreenStoryboard)
    fun v g => { g with widescreenStoryboard := v },
  flag "SamplesMatchPlaybackRate" (·.samplesMatchPlaybackRate)
    fun v g => { g with samplesMatchPlaybackRate := v }]

/-- Parses a line of the section. -/
def read (line : List Char) : Reading (General → General) := readSetting settings line

end General

end Beatmap
