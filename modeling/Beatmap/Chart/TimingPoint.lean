import Beatmap.Chart.Fault
import Beatmap.Number.Decimal
import Beatmap.Text.Pieces

/-!
# Timing points

A line of the section `[TimingPoints]` consists of an offset, a beat length and up to six optional
integers. A line without a finite offset and a beat length is skipped. Each optional field is
decided by its own text: a missing or malformed field takes its default, and malformed fields are
reported in one fault while the timing point is kept.
-/

namespace Beatmap

open Beatmap.Text Beatmap.Number

/-- A timing point. -/
structure TimingPoint where
  /-- The offset in milliseconds. -/
  offset : Int32
  /-- For an uninherited point, the duration of a beat in milliseconds; for an inherited point, the
  negative inverse slider velocity in percent. -/
  beatLength : Double
  meter : Int32 := 4
  sampleSet : Int32 := 0
  sampleIndex : Int32 := 0
  volume : Int32 := 100
  /-- Whether the point sets the tempo. -/
  uninherited : Bool := true
  effects : Int32 := 0
  deriving DecidableEq

namespace TimingField

/-- The optional fields in the order of the line. -/
def all : List TimingField := [meter, sampleSet, sampleIndex, volume, uninherited, effects]

/-- The index of the field after the beat length. -/
def index : TimingField → Nat
  | meter => 0
  | sampleSet => 1
  | sampleIndex => 2
  | volume => 3
  | uninherited => 4
  | effects => 5

/-- The default of a missing or malformed field. -/
def default : TimingField → Int32
  | meter => 4
  | sampleSet => 0
  | sampleIndex => 0
  | volume => 100
  | uninherited => 1
  | effects => 0

/-- The text of the field, if the line has it. `further` is the list of pieces after the beat
length. -/
def written? (field : TimingField) (further : List (List Char)) : Option (List Char) :=
  further[field.index]?

/-- The value of the field. -/
def number (field : TimingField) (further : List (List Char)) : Int32 :=
  ((field.written? further).bind readInt32).getD field.default

/-- The text of the field, if it is malformed. -/
def rejected? (field : TimingField) (further : List (List Char)) :
    Option (TimingField × String) :=
  match field.written? further with
  | none => none
  | some text => if (readInt32 text).isNone then some (field, String.ofList text) else none

theorem all_getElem? : ∀ field : TimingField, all[field.index]? = some field := by
  intro field; cases field <;> rfl

end TimingField

namespace TimingPoint

/-- Parses an offset. Fractions are truncated, and the result is clamped to the range of `Int32`. -/
def readOffset (text : List Char) : Option Int32 :=
  match readFloating .double text with
  | some x => if x.isFinite then some (clampInt32 x.truncate) else none
  | none => none

/-- The timing point of an offset, a beat length and the pieces after them. -/
def ofFields (offset : Int32) (beatLength : Double) (further : List (List Char)) : TimingPoint where
  offset := offset
  beatLength := beatLength
  meter := TimingField.meter.number further
  sampleSet := TimingField.sampleSet.number further
  sampleIndex := TimingField.sampleIndex.number further
  volume := TimingField.volume.number further
  uninherited := TimingField.uninherited.number further == 1
  effects := TimingField.effects.number further

/-- The fault that lists the malformed optional fields. -/
def furtherFault (further : List (List Char)) : Option Fault :=
  match TimingField.all.filterMap (·.rejected? further) with
  | [] => none
  | rejected => some (.unreadableTimingFields rejected)

/-- Parses a line of the section. -/
def read (line : List Char) : Reading TimingPoint :=
  match (pieces ',' line).map trim with
  | offset :: beatLength :: further =>
    match readOffset offset, readFloating .double beatLength with
    | none, _ => .refused (.unreadableOffset (String.ofList offset))
    | _, none => .refused (.unreadableBeatLength (String.ofList beatLength))
    | some offset, some beatLength =>
      ⟨some (ofFields offset beatLength further), furtherFault further⟩
  | _ => .refused (.incompleteTimingPoint (String.ofList line))

/-- The tempo in beats per minute, for an uninherited point. -/
def bpm (p : TimingPoint) : Option Double :=
  if p.uninherited && p.beatLength.isPositive then some (.natDiv 60000 p.beatLength) else none

/-- The slider velocity factor, for an inherited point. -/
def sliderVelocity (p : TimingPoint) : Option Double :=
  if !p.uninherited && p.beatLength.isNegative then some (.natDiv 100 p.beatLength.neg) else none

/-- Whether kiai mode is on. -/
def isKiai (p : TimingPoint) : Bool := p.effects &&& 1 != 0

/-- Whether the first bar line is left out. -/
def omitsFirstBarline (p : TimingPoint) : Bool := p.effects &&& 8 != 0

end TimingPoint

end Beatmap
