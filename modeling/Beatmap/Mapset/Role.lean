import Beatmap.Mapset.Path

/-!
# Roles of files

The role of a file is determined by its extension, ignoring the case of ASCII letters.
-/

namespace Beatmap

/-- The role of a file in an archive. -/
inductive Role where
  | chart
  | audio
  | image
  | video
  | storyboard
  | other
  deriving DecidableEq, Repr

namespace Role

/-- All roles. -/
def all : List Role := [chart, audio, image, video, storyboard, other]

/-- The name of a role. -/
def name : Role → String
  | chart => "chart"
  | audio => "audio"
  | image => "image"
  | video => "video"
  | storyboard => "storyboard"
  | other => "other"

/-- The role with a given name. -/
def ofName? (name : String) : Option Role := all.find? (·.name == name)

/-- The extensions of a role. -/
def extensions : Role → List String
  | chart => ["osu"]
  | audio => ["mp3", "ogg", "wav", "m4a"]
  | image => ["jpg", "jpeg", "png", "gif", "bmp"]
  | video => ["avi", "flv", "mpg", "wmv", "mp4", "m4v"]
  | storyboard => ["osb", "txt"]
  | other => []

/-- The role of an extension in lower case. The extensions of different roles are disjoint. -/
def ofExtension (ext : List Char) : Role :=
  (all.find? (·.extensions.any (·.toList == ext))).getD other

/-- The role of the file at a path. -/
def ofPath (path : List Char) : Role :=
  match Path.lowerExtension? path with
  | some ext => ofExtension ext
  | none => other

theorem ofName?_name : ∀ r : Role, ofName? r.name = some r := by
  intro r; cases r <;> decide

end Role

end Beatmap
