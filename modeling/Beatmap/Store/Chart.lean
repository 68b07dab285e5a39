import Beatmap.Chart.Basic
import Beatmap.Json.Record

/-!
# JSON form of charts

The JSON forms of charts and of their parts. The settings of all sections are fields of one flat
object, in the order of the sections.
-/

namespace Beatmap

open Beatmap.Json
open Beatmap.Json.Value
open Beatmap.Json.FieldReader

/-! ## Timing points -/

/-- The encoded fields of a timing point, in order. -/
def TimingPoint.fieldNames : List String :=
  ["offset_ms", "beat_length_ms", "meter", "sample_set", "sample_index", "volume", "is_uninherited",
    "effects"]

/-- Encodes a timing point. -/
def TimingPoint.toJson (p : TimingPoint) : Value :=
  record fieldNames [int32 p.offset, double p.beatLength, int32 p.meter, int32 p.sampleSet,
    int32 p.sampleIndex, int32 p.volume, .bool p.uninherited, int32 p.effects]

/-- Decodes a timing point. -/
def TimingPoint.ofJson? (floats : FloatReader := Value.floating?) : Value → Option TimingPoint :=
  record? fieldNames do
    return {
      offset := ← nextInt32
      beatLength := ← nextFloating floats _
      meter := ← nextInt32
      sampleSet := ← nextInt32
      sampleIndex := ← nextInt32
      volume := ← nextInt32
      uninherited := ← nextBool
      effects := ← nextInt32 }

/-! ## Hit objects -/

/-- The encoded fields of a hit object, in order. -/
def HitObject.fieldNames : List String :=
  ["x", "y", "offset_ms", "type", "hit_sound", "extra_params", "hit_sample"]

/-- Encodes a hit object. -/
def HitObject.toJson (o : HitObject) : Value :=
  record fieldNames [int32 o.x, int32 o.y, int32 o.offset, int32 o.type, int32 o.hitSound,
    text o.extraParams, text o.hitSample]

/-- Decodes a hit object. -/
def HitObject.ofJson? : Value → Option HitObject :=
  record? fieldNames do
    return {
      x := ← nextInt32
      y := ← nextInt32
      offset := ← nextInt32
      type := ← nextInt32
      hitSound := ← nextInt32
      extraParams := ← nextText
      hitSample := ← nextText }

/-! ## Breaks and colours -/

/-- The encoded fields of a break, in order. -/
def BreakPeriod.fieldNames : List String := ["start_ms", "end_ms"]

/-- Encodes a break. -/
def BreakPeriod.toJson (b : BreakPeriod) : Value :=
  record fieldNames [int32 b.start, int32 b.stop]

/-- Decodes a break. -/
def BreakPeriod.ofJson? : Value → Option BreakPeriod :=
  record? fieldNames do return { start := ← nextInt32, stop := ← nextInt32 }

/-- The encoded fields of a colour, in order. -/
def Colour.fieldNames : List String := ["r", "g", "b"]

/-- Encodes a colour. -/
def Colour.toJson (c : Colour) : Value :=
  record fieldNames [int32 c.red, int32 c.green, int32 c.blue]

/-- Decodes a colour. -/
def Colour.ofJson? : Value → Option Colour :=
  record? fieldNames do return { red := ← nextInt32, green := ← nextInt32, blue := ← nextInt32 }

/-! ## Settings -/

/-- The encoded fields of the general section, in order. -/
def General.fieldNames : List String :=
  ["audio_filename", "audio_lead_in", "audio_hash", "preview_time_ms", "countdown", "sample_set",
    "stack_leniency", "mode", "letterbox_in_breaks", "story_fire_in_front", "use_skin_sprites",
    "always_show_playfield", "overlay_position", "skin_preference", "epilepsy_warning",
    "countdown_offset", "special_style", "widescreen_storyboard", "samples_match_playback_rate"]

/-- The values of the fields of the general section. -/
def General.fieldValues (g : General) : List Value :=
  [text g.audioFilename, int32 g.audioLeadIn, text g.audioHash, int32 g.previewTime,
    int32 g.countdown, text g.sampleSet, single g.stackLeniency, int32 g.mode,
    .bool g.letterboxInBreaks, .bool g.storyFireInFront, .bool g.useSkinSprites,
    .bool g.alwaysShowPlayfield, text g.overlayPosition, text g.skinPreference,
    .bool g.epilepsyWarning, int32 g.countdownOffset, .bool g.specialStyle,
    .bool g.widescreenStoryboard, .bool g.samplesMatchPlaybackRate]

/-- Decodes the fields of the general section. -/
def General.readFields (floats : FloatReader) : FieldReader General := do
  return {
    audioFilename := ← nextText
    audioLeadIn := ← nextInt32
    audioHash := ← nextText
    previewTime := ← nextInt32
    countdown := ← nextInt32
    sampleSet := ← nextText
    stackLeniency := ← nextFloating floats _
    mode := ← nextInt32
    letterboxInBreaks := ← nextBool
    storyFireInFront := ← nextBool
    useSkinSprites := ← nextBool
    alwaysShowPlayfield := ← nextBool
    overlayPosition := ← nextText
    skinPreference := ← nextText
    epilepsyWarning := ← nextBool
    countdownOffset := ← nextInt32
    specialStyle := ← nextBool
    widescreenStoryboard := ← nextBool
    samplesMatchPlaybackRate := ← nextBool }

/-- The encoded fields of the editor section, in order. -/
def Editor.fieldNames : List String :=
  ["bookmarks", "distance_spacing", "beat_divisor", "grid_size", "timeline_zoom"]

/-- The values of the fields of the editor section. -/
def Editor.fieldValues (e : Editor) : List Value :=
  [list int32 e.bookmarks, double e.distanceSpacing, int32 e.beatDivisor, int32 e.gridSize,
    double e.timelineZoom]

/-- Decodes the fields of the editor section. -/
def Editor.readFields (floats : FloatReader) : FieldReader Editor := do
  return {
    bookmarks := ← .next (list? (·.int32?))
    distanceSpacing := ← nextFloating floats _
    beatDivisor := ← nextInt32
    gridSize := ← nextInt32
    timelineZoom := ← nextFloating floats _ }

/-- The encoded fields of the metadata section, in order. -/
def Metadata.fieldNames : List String :=
  ["title", "title_unicode", "artist", "artist_unicode", "creator", "version", "source", "tags",
    "beatmap_id", "beatmapset_id"]

/-- The values of the fields of the metadata section. -/
def Metadata.fieldValues (m : Metadata) : List Value :=
  [text m.title, text m.titleUnicode, text m.artist, text m.artistUnicode, text m.creator,
    text m.version, text m.source, text m.tags, int32 m.beatmapId, int32 m.beatmapSetId]

/-- Decodes the fields of the metadata section. -/
def Metadata.readFields : FieldReader Metadata := do
  return {
    title := ← nextText
    titleUnicode := ← nextText
    artist := ← nextText
    artistUnicode := ← nextText
    creator := ← nextText
    version := ← nextText
    source := ← nextText
    tags := ← nextText
    beatmapId := ← nextInt32
    beatmapSetId := ← nextInt32 }

/-- The encoded fields of the difficulty section, in order. -/
def Difficulty.fieldNames : List String :=
  ["hp_drain_rate", "circle_size", "overall_difficulty", "approach_rate", "slider_multiplier",
    "slider_tick_rate"]

/-- The values of the fields of the difficulty section. -/
def Difficulty.fieldValues (d : Difficulty) : List Value :=
  [single d.hpDrainRate, single d.circleSize, single d.overallDifficulty, single d.approachRate,
    double d.sliderMultiplier, double d.sliderTickRate]

/-- Decodes the fields of the difficulty section. -/
def Difficulty.readFields (floats : FloatReader) : FieldReader Difficulty := do
  return {
    hpDrainRate := ← nextFloating floats _
    circleSize := ← nextFloating floats _
    overallDifficulty := ← nextFloating floats _
    approachRate := ← nextFloating floats _
    sliderMultiplier := ← nextFloating floats _
    sliderTickRate := ← nextFloating floats _ }

/-! ## Events and metrics -/

/-- The encoded fields of the events section, in order. -/
def Events.fieldNames : List String := ["background_filename", "break_periods"]

/-- The values of the fields of the events section. -/
def Events.fieldValues (e : Events) : List Value :=
  [text e.background, arrayOf BreakPeriod.toJson e.breaks]

/-- Decodes the fields of the events section. -/
def Events.readFields : FieldReader Events := do
  return { background := ← nextText, breaks := ← .next (array? BreakPeriod.ofJson?) }

/-- The encoded fields of the metrics, in order. -/
def Metrics.fieldNames : List String := ["total_length_ms", "hit_length_ms", "max_combo", "bpm"]

/-- The values of the fields of the metrics. -/
def Metrics.fieldValues (m : Metrics) : List Value :=
  [int32 m.totalLength, int32 m.hitLength, int m.maxCombo.toNat, double m.bpm]

/-- Decodes the fields of the metrics. -/
def Metrics.readFields (floats : FloatReader) : FieldReader Metrics := do
  return {
    totalLength := ← nextInt32
    hitLength := ← nextInt32
    maxCombo := ← .next (·.uint32?)
    bpm := ← nextFloating floats _ }

/-! ## Charts -/

/-- The encoded fields of a chart, in order. -/
def Chart.fieldNames : List String :=
  ["osu_file_format", "source_filename", "content_hash"] ++ General.fieldNames ++ Editor.fieldNames
    ++ Metadata.fieldNames ++ Difficulty.fieldNames ++ Events.fieldNames
    ++ ["timing_points", "combo_colours", "hit_objects"] ++ Metrics.fieldNames

/-- The values of the fields of a chart. -/
def Chart.fieldValues (c : Chart) : List Value :=
  [int32 c.formatVersion, text c.sourceFilename, text c.contentHash] ++ c.general.fieldValues
    ++ c.editor.fieldValues ++ c.metadata.fieldValues ++ c.difficulty.fieldValues
    ++ c.events.fieldValues
    ++ [arrayOf TimingPoint.toJson c.timingPoints, arrayOf Colour.toJson c.comboColours,
      arrayOf HitObject.toJson c.hitObjects]
    ++ c.metrics.fieldValues

/-- Decodes the fields of a chart. -/
def Chart.readFields (floats : FloatReader) : FieldReader Chart := do
  return {
    formatVersion := ← nextInt32
    sourceFilename := ← nextText
    contentHash := ← nextText
    general := ← General.readFields floats
    editor := ← Editor.readFields floats
    metadata := ← Metadata.readFields
    difficulty := ← Difficulty.readFields floats
    events := ← Events.readFields
    timingPoints := ← .next (array? (TimingPoint.ofJson? floats))
    comboColours := ← .next (array? Colour.ofJson?)
    hitObjects := ← .next (array? HitObject.ofJson?)
    metrics := ← Metrics.readFields floats }

/-- Encodes a chart. -/
def Chart.toJson (c : Chart) : Value := record fieldNames c.fieldValues

/-- Decodes a chart. -/
def Chart.ofJson? (floats : FloatReader := Value.floating?) : Value → Option Chart :=
  record? fieldNames (Chart.readFields floats)

end Beatmap
