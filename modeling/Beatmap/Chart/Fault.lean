import Beatmap.Chart.Section

/-!
# Faults of lines

Parsing a chart never fails. A line, or a field of a line, that cannot be parsed is skipped and
recorded as a `Fault`, whose text is given by `Fault.message`.
-/

namespace Beatmap

/-- The optional fields of a timing point. -/
inductive TimingField where
  | meter
  | sampleSet
  | sampleIndex
  | volume
  | uninherited
  | effects
  deriving DecidableEq, Repr

/-- The name of the field in messages. -/
def TimingField.title : TimingField → String
  | meter => "meter"
  | sampleSet => "sample set"
  | sampleIndex => "sample index"
  | volume => "volume"
  | uninherited => "uninherited flag"
  | effects => "effects"

/-- The five integer fields of a hit object. -/
inductive HitField where
  | x
  | y
  | offset
  | kind
  | hitSound
  deriving DecidableEq, Repr

/-- The name of the field in messages. -/
def HitField.title : HitField → String
  | x => "x"
  | y => "y"
  | offset => "offset"
  | kind => "type"
  | hitSound => "hit sound"

/-- The format version of a chart without a readable version marker. -/
def latestFormatVersion : Int32 := 14

/-- Why a line, or a field of a line, was skipped. -/
inductive Fault where
  /-- The first line has a version marker, but the text after the `v` is not an integer. -/
  | unreadableVersion (version : String)
  /-- The line precedes every section header. -/
  | orphan
  /-- A line of a key-value section has no colon. -/
  | missingSeparator (line : String)
  /-- The value of a key cannot be parsed. -/
  | unreadableValue (key value : String)
  /-- A bookmark is not an integer. -/
  | unreadableBookmarks (value : String)
  /-- A break without an end. -/
  | incompleteBreak (line : String)
  /-- The start or the end of a break is not an integer. -/
  | unreadableBreak (line : String)
  /-- A timing point without a beat length. -/
  | incompleteTimingPoint (line : String)
  /-- The offset of a timing point is not a finite number. -/
  | unreadableOffset (offset : String)
  /-- The beat length of a timing point is not a number. -/
  | unreadableBeatLength (beatLength : String)
  /-- Some optional fields of a timing point are not integers; the timing point is kept. -/
  | unreadableTimingFields (fields : List (TimingField × String))
  /-- A combo colour without three integers. -/
  | colourNotTriple (key value : String)
  /-- A hit object with fewer than five fields. -/
  | incompleteHitObject (line : String)
  /-- One of the first five fields of a hit object is not an integer. -/
  | unreadableHitField (field : HitField) (text : String)
  deriving DecidableEq, Repr

/-- The message of a fault. -/
def Fault.message : Fault → String
  | unreadableVersion version =>
    s!"unreadable format version `{version}`, assuming v{latestFormatVersion.toInt}"
  | orphan => "line before the first section header ignored"
  | missingSeparator line => s!"expected `Key: Value`, got `{line}`"
  | unreadableValue key value => s!"invalid value `{value}` for {key}"
  | unreadableBookmarks value => s!"invalid bookmark list `{value}`"
  | incompleteBreak line => s!"break needs a start and an end, got `{line}`"
  | unreadableBreak line => s!"invalid break period `{line}`"
  | incompleteTimingPoint line => s!"timing point needs at least 2 fields, got `{line}`"
  | unreadableOffset offset => s!"invalid timing point offset `{offset}`"
  | unreadableBeatLength beatLength => s!"invalid beat length `{beatLength}`"
  | unreadableTimingFields fields =>
    let listed := fields.map fun (field, text) => s!"{field.title} `{text}`"
    "invalid " ++ String.intercalate ", " listed ++ "; default used"
  | colourNotTriple key value => s!"{key} is not an RGB triple: `{value}`"
  | incompleteHitObject line => s!"hit object needs at least 5 fields, got `{line}`"
  | unreadableHitField field text => s!"invalid hit object {field.title} `{text}`"

/-- A fault with its line number and section. -/
structure Diagnostic where
  /-- The line number, starting at 1. -/
  line : Nat
  /-- The section that governs the line. -/
  inSection : Section
  fault : Fault
  deriving DecidableEq, Repr

/-- The text of a diagnostic. -/
def Diagnostic.display (d : Diagnostic) : String :=
  s!"line {d.line} ({d.inSection.title}): {d.fault.message}"

/-- The result of parsing a line: a value, a fault, both or neither. -/
structure Reading (α : Type) where
  value : Option α := none
  fault : Option Fault := none
  deriving DecidableEq, Repr

namespace Reading

variable {α : Type}

/-- A line that yields a value and no fault. -/
def accepted (value : α) : Reading α := ⟨some value, none⟩

/-- A line that is skipped with a fault. -/
def refused (fault : Fault) : Reading α := ⟨none, some fault⟩

/-- A line that is skipped without a fault. -/
def silent : Reading α := ⟨none, none⟩

/-- The reading of a result that is either a value or a fault. -/
def ofExcept : Except Fault α → Reading α
  | .ok value => accepted value
  | .error fault => refused fault

/-- Maps a function over the value. -/
def map {β : Type} (g : α → β) (r : Reading α) : Reading β := ⟨r.value.map g, r.fault⟩

end Reading

end Beatmap
