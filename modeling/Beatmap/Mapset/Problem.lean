import Beatmap.Mapset.Basic

/-!
# Problems of mapsets

`Mapset.problems` lists every structural problem; a mapset without problems is valid. A mapset
without charts has the single problem `noCharts`.
-/

namespace Beatmap

/-- A structural problem of a mapset. -/
inductive Problem where
  | missingTitle
  | missingArtist
  | missingCreator
  | noCharts
  /-- An earlier chart has the same mode and version. -/
  | duplicateVersion (version : String) (mode : Int32)
  | unnamedChart (sourceFilename : String)
  | chartWithoutCreator (sourceFilename : String)
  | chartWithoutObjects (version : String)
  /-- The audio file of a chart is not among the members. -/
  | audioNotFound (filename : String)
  | noAudio
  deriving DecidableEq, Repr

/-- The message of a problem. -/
def Problem.message : Problem → String
  | missingTitle => "Mapset title is required"
  | missingArtist => "Artist name is required"
  | missingCreator => "Creator name is required"
  | noCharts => "At least one beatmap is required"
  | duplicateVersion version mode => s!"Duplicate difficulty version: {version} (mode {mode.toInt})"
  | unnamedChart filename => s!"Beatmap version/difficulty name is required ({filename})"
  | chartWithoutCreator filename => s!"Beatmap creator is required ({filename})"
  | chartWithoutObjects version => s!"No hit objects found in difficulty: {version}"
  | audioNotFound filename => s!"Audio file not found: {filename}"
  | noAudio => "At least one audio file is required"

/-- The problem, if the condition holds. -/
def reportIf (condition : Bool) (problem : Problem) : List Problem :=
  if condition then [problem] else []

/-- Whether a text is empty or white space. -/
def isBlankText (text : String) : Bool := (Text.trim text.toList).isEmpty

/-- The key by which the charts of a mapset must differ. -/
def Chart.identity (c : Chart) : Int32 × String := (c.general.mode, c.metadata.version)

namespace Mapset

/-- Whether a path matches one of the audio members. -/
def hasAudio (m : Mapset) (filename : String) : Bool :=
  (m.membersWithRole .audio).any (·.matchesPath filename)

/-- The problems of a chart, given the charts before it. -/
def problemsOfChart (m : Mapset) (earlier : List Chart) (c : Chart) : List Problem :=
  reportIf (earlier.any (·.identity == c.identity))
      (.duplicateVersion c.metadata.version c.general.mode)
    ++ reportIf (isBlankText c.metadata.version) (.unnamedChart c.sourceFilename)
    ++ reportIf (isBlankText c.metadata.creator) (.chartWithoutCreator c.sourceFilename)
    ++ reportIf c.hitObjects.isEmpty (.chartWithoutObjects c.metadata.version)
    ++ reportIf (c.general.audioFilename != "" && !m.hasAudio c.general.audioFilename)
      (.audioNotFound c.general.audioFilename)

/-- The problems of a list of charts, given the charts before them. -/
def problemsOfCharts (m : Mapset) (earlier : List Chart) : List Chart → List Problem
  | [] => []
  | c :: rest => m.problemsOfChart earlier c ++ m.problemsOfCharts (c :: earlier) rest

/-- The structural problems of a mapset. -/
def problems (m : Mapset) : List Problem :=
  reportIf (isBlankText m.title) .missingTitle
    ++ reportIf (isBlankText m.artist) .missingArtist
    ++ reportIf (isBlankText m.creator) .missingCreator
    ++ if m.charts.isEmpty then [.noCharts]
      else m.problemsOfCharts [] m.charts ++ reportIf (m.membersWithRole .audio).isEmpty .noAudio

end Mapset

end Beatmap
