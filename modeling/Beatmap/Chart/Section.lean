import Beatmap.Text.Blank

/-!
# Sections

Header lines such as `[HitObjects]` divide a chart file into sections. Lines before the first header
belong to `preamble`, and a header with an unlisted name opens the section `unknown`. Names are
case-sensitive.
-/

namespace Beatmap

/-- The section that a line of a chart file belongs to. -/
inductive Section where
  | preamble
  | general
  | editor
  | metadata
  | difficulty
  | events
  | timingPoints
  | colours
  | hitObjects
  | unknown
  deriving DecidableEq, Repr

namespace Section

/-- The section of a header name. -/
def ofName : String → Section
  | "General" => general
  | "Editor" => editor
  | "Metadata" => metadata
  | "Difficulty" => difficulty
  | "Events" => events
  | "TimingPoints" => timingPoints
  | "Colours" => colours
  | "HitObjects" => hitObjects
  | _ => unknown

/-- The section opened by a header line: a name in square brackets, with surrounding white space
trimmed. `none` for other lines. -/
def ofHeader? : List Char → Option Section
  | '[' :: rest =>
    if rest.getLast? = some ']' then
      some (ofName (String.ofList (Text.trim rest.dropLast)))
    else none
  | _ => none

/-- The name of the section in messages. -/
def title : Section → String
  | preamble => "no section"
  | general => "General"
  | editor => "Editor"
  | metadata => "Metadata"
  | difficulty => "Difficulty"
  | events => "Events"
  | timingPoints => "TimingPoints"
  | colours => "Colours"
  | hitObjects => "HitObjects"
  | unknown => "unknown section"

/-- The sections with a header name. -/
def named : List Section :=
  [general, editor, metadata, difficulty, events, timingPoints, colours, hitObjects]

/-- No header opens the preamble. -/
theorem ofName_ne_preamble (name : String) : ofName name ≠ preamble := by
  unfold ofName
  split <;> simp

theorem ofHeader?_ne_preamble {line : List Char} : ofHeader? line ≠ some preamble := by
  unfold ofHeader?
  split
  · split
    · simpa using ofName_ne_preamble _
    · simp
  · simp

/-- A header line starts with an opening bracket. -/
theorem head?_of_ofHeader? {line : List Char} {s : Section} (h : ofHeader? line = some s) :
    line.head? = some '[' := by
  unfold ofHeader? at h
  split at h
  · rfl
  · simp at h

end Section

end Beatmap
