import Beatmap.Chart.Setting

/-!
# The metadata section

Title and artist have a romanised and a Unicode form. `displayTitle` and `displayArtist` prefer the
romanised form.
-/

namespace Beatmap

/-- The settings of the section `[Metadata]` with their defaults. -/
structure Metadata where
  title : String := ""
  titleUnicode : String := ""
  artist : String := ""
  artistUnicode : String := ""
  creator : String := ""
  /-- The name of the difficulty. -/
  version : String := ""
  source : String := ""
  tags : String := ""
  beatmapId : Int32 := 0
  beatmapSetId : Int32 := 0
  deriving DecidableEq

namespace Metadata

open Setting

/-- The keys of the section. -/
def settings : List (Setting Metadata) := [
  text "Title" (·.title) fun v m => { m with title := v },
  text "TitleUnicode" (·.titleUnicode) fun v m => { m with titleUnicode := v },
  text "Artist" (·.artist) fun v m => { m with artist := v },
  text "ArtistUnicode" (·.artistUnicode) fun v m => { m with artistUnicode := v },
  text "Creator" (·.creator) fun v m => { m with creator := v },
  text "Version" (·.version) fun v m => { m with version := v },
  text "Source" (·.source) fun v m => { m with source := v },
  text "Tags" (·.tags) fun v m => { m with tags := v },
  integer "BeatmapID" (·.beatmapId) fun v m => { m with beatmapId := v },
  integer "BeatmapSetID" (·.beatmapSetId) fun v m => { m with beatmapSetId := v }]

/-- Parses a line of the section. -/
def read (line : List Char) : Reading (Metadata → Metadata) := readSetting settings line

/-- The first text, or the second if the first is empty. -/
def nonEmptyOr (preferred fallback : String) : String :=
  if preferred = "" then fallback else preferred

/-- The romanised title, or the Unicode title if it is empty. -/
def displayTitle (m : Metadata) : String := nonEmptyOr m.title m.titleUnicode

/-- The romanised artist, or the Unicode artist if it is empty. -/
def displayArtist (m : Metadata) : String := nonEmptyOr m.artist m.artistUnicode

theorem nonEmptyOr_eq_empty_iff {a b : String} : nonEmptyOr a b = "" ↔ a = "" ∧ b = "" := by
  unfold nonEmptyOr
  split
  · next h => simp [h]
  · next h => simp [h]

end Metadata

end Beatmap
