import Beatmap.Proofs.Pieces
import Beatmap.Proofs.Settings
import Beatmap.Proofs.Version

/-!
# The fields of a file

`General.ofLast`, `Editor.ofLast`, `Metadata.ofLast` and `Difficulty.ofLast` specify, independently
of the tables used by the parser, which key sets which field in which form and with which default.
`fields_eq_last` shows that parsing a text yields exactly these sections, together with the last
background and the version stated by the first meaningful line.

The tables are lawful (`General.lawful` and its siblings): all keys differ, and no setting changes
the field of another.
-/

namespace Beatmap

open Beatmap.Text Beatmap.Number Setting

/-! ## Forms of values -/

/-- A text value. -/
def readText (value : List Char) : Option String := some (String.ofList value)

/-- A Boolean value, true exactly for `1`. -/
def readSwitch (value : List Char) : Option Bool := some (value == ['1'])

/-- A non-empty comma-separated list of integers. -/
def readIntegers (value : List Char) : Option (List Int32) :=
  if value = [] then none else (pieces ',' value).mapM (readInt32 <| trim ·)

theorem readable_parsed {σ α : Type} (parse : List Char → Option α) (key : String) (get : σ → α)
    (set : α → σ → σ) : (parsed parse key get set).readable = parse := by
  funext value
  unfold readable parsed
  dsimp only
  cases parse value <;> rfl

theorem readable_bookmarks {σ : Type} (key : String) (get : σ → List Int32)
    (set : List Int32 → σ → σ) : (Setting.bookmarks key get set).readable = readIntegers := by
  funext value
  unfold readable Setting.bookmarks readIntegers
  dsimp only
  by_cases hv : value = []
  · simp [hv]
  · rw [if_neg (by simpa using hv), if_neg hv]
    cases (pieces ',' value).mapM (readInt32 <| trim ·) <;> rfl

/-! ## The tables are lawful -/

theorem General.lawful : Lawful General.settings where
  get_set := by simp [General.settings, text, flag, integer, single, parsed]
  apart := by simp [General.settings, Apart, text, flag, integer, single, parsed]

theorem Editor.lawful : Lawful Editor.settings where
  get_set := by simp [Editor.settings, Setting.bookmarks, integer, double, parsed]
  apart := by simp [Editor.settings, Apart, Setting.bookmarks, integer, double, parsed]

theorem Metadata.lawful : Lawful Metadata.settings where
  get_set := by simp [Metadata.settings, text, integer, parsed]
  apart := by simp [Metadata.settings, Apart, text, integer, parsed]

theorem Difficulty.lawful : Lawful Difficulty.settings where
  get_set := by simp [Difficulty.settings, single, double, parsed]
  apart := by simp [Difficulty.settings, Apart, single, double, parsed]

namespace SettingsPart

def general : SettingsPart General :=
  .ofTable .general (fun fields => fields) General.settings .general General.lawful (fun _ => rfl)
    (fun _ _ => rfl)

def editor : SettingsPart Editor :=
  .ofTable .editor (fun fields => fields) Editor.settings .editor Editor.lawful (fun _ => rfl)
    (fun _ _ => rfl)

def metadata : SettingsPart Metadata :=
  .ofTable .metadata (fun fields => fields) Metadata.settings .metadata Metadata.lawful
    (fun _ => rfl)
    (fun _ _ => rfl)

def difficulty : SettingsPart Difficulty :=
  .ofTable .difficulty (fun fields => fields) Difficulty.settings .difficulty Difficulty.lawful
    (fun _ => rfl)
    (fun _ _ => rfl)

end SettingsPart

/-! ## Sections as functions of their values -/

/-- The section with the given values of its keys. The other three sections are analogous. -/
def General.ofLast (values : String → List (List Char)) : General where
  audioFilename := lastOf readText (values "AudioFilename") ""
  audioLeadIn := lastOf readInt32 (values "AudioLeadIn") 0
  audioHash := lastOf readText (values "AudioHash") ""
  previewTime := lastOf readInt32 (values "PreviewTime") (-1)
  countdown := lastOf readInt32 (values "Countdown") 1
  sampleSet := lastOf readText (values "SampleSet") "Normal"
  stackLeniency := lastOf (readFloating .single) (values "StackLeniency") (.ofRatio false 7 10)
  mode := lastOf readInt32 (values "Mode") 0
  letterboxInBreaks := lastOf readSwitch (values "LetterboxInBreaks") false
  storyFireInFront := lastOf readSwitch (values "StoryFireInFront") true
  useSkinSprites := lastOf readSwitch (values "UseSkinSprites") false
  alwaysShowPlayfield := lastOf readSwitch (values "AlwaysShowPlayfield") false
  overlayPosition := lastOf readText (values "OverlayPosition") "NoChange"
  skinPreference := lastOf readText (values "SkinPreference") ""
  epilepsyWarning := lastOf readSwitch (values "EpilepsyWarning") false
  countdownOffset := lastOf readInt32 (values "CountdownOffset") 0
  specialStyle := lastOf readSwitch (values "SpecialStyle") false
  widescreenStoryboard := lastOf readSwitch (values "WidescreenStoryboard") false
  samplesMatchPlaybackRate := lastOf readSwitch (values "SamplesMatchPlaybackRate") false

def Editor.ofLast (values : String → List (List Char)) : Editor where
  bookmarks := lastOf readIntegers (values "Bookmarks") []
  distanceSpacing := lastOf (readFloating .double) (values "DistanceSpacing") (.ofRatio false 1 1)
  beatDivisor := lastOf readInt32 (values "BeatDivisor") 4
  gridSize := lastOf readInt32 (values "GridSize") 4
  timelineZoom := lastOf (readFloating .double) (values "TimelineZoom") (.ofRatio false 1 1)

def Metadata.ofLast (values : String → List (List Char)) : Metadata where
  title := lastOf readText (values "Title") ""
  titleUnicode := lastOf readText (values "TitleUnicode") ""
  artist := lastOf readText (values "Artist") ""
  artistUnicode := lastOf readText (values "ArtistUnicode") ""
  creator := lastOf readText (values "Creator") ""
  version := lastOf readText (values "Version") ""
  source := lastOf readText (values "Source") ""
  tags := lastOf readText (values "Tags") ""
  beatmapId := lastOf readInt32 (values "BeatmapID") 0
  beatmapSetId := lastOf readInt32 (values "BeatmapSetID") 0

def Difficulty.ofLast (values : String → List (List Char)) : Difficulty where
  hpDrainRate := lastOf (readFloating .single) (values "HPDrainRate") (.ofRatio false 5 1)
  circleSize := lastOf (readFloating .single) (values "CircleSize") (.ofRatio false 5 1)
  overallDifficulty := lastOf (readFloating .single) (values "OverallDifficulty")
    (.ofRatio false 5 1)
  approachRate := lastOf (readFloating .single) (values "ApproachRate") (.ofRatio false 5 1)
  sliderMultiplier := lastOf (readFloating .double) (values "SliderMultiplier") (.ofRatio false 7 5)
  sliderTickRate := lastOf (readFloating .double) (values "SliderTickRate") (.ofRatio false 1 1)

/-!
A section whose fields satisfy the tables is the specified one.
-/

theorem General.eq_ofLast {g : General} {values : String → List (List Char)}
    (h : ∀ s ∈ settings, s.get g = lastOf s.readable (values s.key) (s.get {})) :
    g = ofLast values := by
  -- One equation for each setting, in the order of the fields.
  simp only [settings, List.forall_mem_cons, integer, single, readable_parsed, List.not_mem_nil,
    IsEmpty.forall_iff, implies_true, and_true] at h
  cases g
  simp only [ofLast, General.mk.injEq]
  exact h

theorem Editor.eq_ofLast {e : Editor} {values : String → List (List Char)}
    (h : ∀ s ∈ settings, s.get e = lastOf s.readable (values s.key) (s.get {})) :
    e = ofLast values := by
  simp only [settings, List.forall_mem_cons, integer, double, readable_parsed, readable_bookmarks,
    List.not_mem_nil, IsEmpty.forall_iff, implies_true, and_true] at h
  cases e
  simp only [ofLast, Editor.mk.injEq]
  exact h

theorem Metadata.eq_ofLast {m : Metadata} {values : String → List (List Char)}
    (h : ∀ s ∈ settings, s.get m = lastOf s.readable (values s.key) (s.get {})) :
    m = ofLast values := by
  simp only [settings, List.forall_mem_cons, integer, readable_parsed, List.not_mem_nil,
    IsEmpty.forall_iff, implies_true, and_true] at h
  cases m
  simp only [ofLast, Metadata.mk.injEq]
  exact h

theorem Difficulty.eq_ofLast {d : Difficulty} {values : String → List (List Char)}
    (h : ∀ s ∈ settings, s.get d = lastOf s.readable (values s.key) (s.get {})) :
    d = ofLast values := by
  simp only [settings, List.forall_mem_cons, single, double, readable_parsed, List.not_mem_nil,
    IsEmpty.forall_iff, implies_true, and_true] at h
  cases d
  simp only [ofLast, Difficulty.mk.injEq]
  exact h

/-! ## The background -/

/-- The background named by a line: the text between its second and third comma, or its end, without
blanks and quotes at both ends. -/
def backgroundOf? (line : List Char) : Option String :=
  if "0,0,".toList.isPrefixOf line then
    some (String.ofList (trimQuotes (trim ((line.drop 4).takeWhile (· != ',')))))
  else none

/-- The background of an event. -/
def Event.background? : Event → Option String
  | .background filename => some filename
  | .pause _ => none

/-- A line with the prefix of a background has a third piece. -/
theorem pieces_of_background {line : List Char} (h : "0,0,".toList.isPrefixOf line = true) :
    ∃ rest, pieces ',' line = ['0'] :: ['0'] :: (line.drop 4).takeWhile (· != ',') :: rest := by
  obtain ⟨tail, rfl⟩ := List.isPrefixOf_iff_prefix.mp h
  show ∃ rest, pieces ',' (['0'] ++ ',' :: (['0'] ++ ',' :: tail))
    = ['0'] :: ['0'] :: tail.takeWhile (· != ',') :: rest
  rw [pieces_append_cons (by decide), pieces_append_cons (by decide)]
  cases ht : pieces ',' tail with
  | nil => exact absurd ht (pieces_ne_nil ',' tail)
  | cons p ps => exact ⟨ps, by rw [eq_takeWhile_of_pieces ht]⟩

theorem background_of_pieces {line filename : List Char} {rest : List (List Char)}
    (h : pieces ',' line = ['0'] :: ['0'] :: filename :: rest) :
    "0,0,".toList.isPrefixOf line = true := by
  obtain ⟨-, tail, rfl, h₁⟩ := pieces_eq_cons_cons_iff.mp h
  obtain ⟨-, tail, rfl, -⟩ := pieces_eq_cons_cons_iff.mp h₁
  exact List.isPrefixOf_iff_prefix.mpr ⟨tail, rfl⟩

/-- `Event.read` yields a background exactly for the lines that name one. -/
theorem Event.background_read (line : List Char) :
    (Event.read line).value.bind Event.background? = backgroundOf? line := by
  unfold backgroundOf?
  by_cases h : "0,0,".toList.isPrefixOf line = true
  · obtain ⟨rest, hpieces⟩ := pieces_of_background h
    rw [if_pos h, Event.read, hpieces]
    rfl
  · rw [if_neg h]
    unfold Event.read
    split
    next hpieces => exact absurd (background_of_pieces hpieces) h
    -- A break names no background, whether or not it is readable.
    next => split <;> rfl
    next => rfl
    next => rfl

/-- The background after a line of the events section. -/
theorem background_step (line : List Char) (events : Events) :
    (Events.background (Section.step .events line events))
      = (backgroundOf? line).getD events.background := by
  rw [← Event.background_read]
  simp only [Section.step, Statement.read, Reading.map]
  cases (Event.read line).value with
  | none => rfl
  | some event =>
    cases event with
    | background filename => rfl
    | pause period => rfl

theorem background_ofLines (lines : List (List Char)) :
    (Chart.ofLines lines).1.events.background
      = ((governedBy .events lines).filterMap fun raw => backgroundOf? (trim raw)).getLastD "" := by
  have hrun : (governedBy .events lines).foldl
        (fun background raw => (backgroundOf? (trim raw)).getD background)
        (Events.background (Chart.content {} .events))
      = Events.background ((governedBy .events lines).foldl
          (fun content raw => Section.step .events (trim raw) content)
            (Chart.content {} .events)) :=
    List.foldl_hom Events.background fun events raw => (background_step (trim raw) events).symm
  rw [← foldl_overwrite]
  exact (congrArg Events.background (content_ofLines .events lines)).trans hrun.symm

/-! ## All fields -/

/-- **Fields of a file.** The settings of a text are given by the values of their keys in the lines
of their section: each field holds the last readable value, or its default. The background is the
last one named by a line of the events section, and the version is the one stated by the first
meaningful line, or 14 if it states none. -/
theorem fields_eq_last (text : String) :
    let lines := linesOf text.toList
    let chart := (Chart.parse text).1
    chart.general = General.ofLast (valuesOf .general lines)
      ∧ chart.editor = Editor.ofLast (valuesOf .editor lines)
      ∧ chart.metadata = Metadata.ofLast (valuesOf .metadata lines)
      ∧ chart.difficulty = Difficulty.ofLast (valuesOf .difficulty lines)
      ∧ chart.events.background
        = ((governedBy .events lines).filterMap fun raw => backgroundOf? (trim raw)).getLastD ""
      ∧ (∀ first version, lines.find? isMeaningful = some first →
          StatesVersion (trim first) version → chart.formatVersion = version)
      ∧ ((∀ first version, lines.find? isMeaningful = some first →
          ¬StatesVersion (trim first) version) → chart.formatVersion = 14) := by
  intro lines chart
  have hversion : chart.formatVersion
      = ((lines.find? isMeaningful).map versionOf).getD latestFormatVersion :=
    formatVersion_feedAll lines
  refine ⟨?_, ?_, ?_, ?_, background_ofLines lines, ?_, ?_⟩
  · exact General.eq_ofLast fun s hs => SettingsPart.general.get_ofLines hs lines
  · exact Editor.eq_ofLast fun s hs => SettingsPart.editor.get_ofLines hs lines
  · exact Metadata.eq_ofLast fun s hs => SettingsPart.metadata.get_ofLines hs lines
  · exact Difficulty.eq_ofLast fun s hs => SettingsPart.difficulty.get_ofLines hs lines
  · intro first version hfirst hstates
    rw [hversion, hfirst, Option.map_some, Option.getD_some, versionOf,
      readVersion_eq_ok_iff.mpr hstates]
  · intro hnone
    rw [hversion]
    cases hfirst : lines.find? isMeaningful with
    | none => rfl
    | some first =>
      rw [Option.map_some, Option.getD_some, versionOf]
      split
      next version hv => exact absurd (readVersion_eq_ok_iff.mp hv) (hnone first version hfirst)
      next => rfl

end Beatmap
