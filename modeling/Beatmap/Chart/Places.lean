import Beatmap.Chart.Reader

/-!
# Reading with indexed access

`Event.read`, `TimingPoint.read` and `HitObject.read` match on the pieces of a line, so that no
piece can be missing. The functions of this module read the same lines as indexed accesses guarded
by tests on the prefix of the line or on the number of its pieces. An access out of range is the
explicit error `OutOfRange`.

`Beatmap.Proofs.Places` shows that no access is out of range and that both readings agree.
-/

namespace Beatmap

open Beatmap.Text Beatmap.Number

/-- An access out of range. -/
inductive OutOfRange where
  /-- Access to the piece `place` of `count` pieces. -/
  | piece (place count : Nat)
  /-- Access to the pieces from `first` to `last`, exclusive, of `count` pieces. -/
  | slice (first last count : Nat)
  /-- Access to the last of no pieces. -/
  | last
  deriving DecidableEq, Repr

variable (fields : List (List Char))

/-- The piece at an index. -/
def pieceAt (place : Nat) : Except OutOfRange (List Char) :=
  match fields[place]? with
  | some piece => .ok piece
  | none => .error (.piece place fields.length)

/-- The pieces from index `first` to index `last`, exclusive. -/
def sliceAt (first last : Nat) : Except OutOfRange (List (List Char)) :=
  if first ≤ last ∧ last ≤ fields.length then .ok ((fields.take last).drop first)
  else .error (.slice first last fields.length)

/-- The index of the last piece. -/
def lastPlace : Except OutOfRange Nat :=
  match fields.length with
  | 0 => .error .last
  | last + 1 => .ok last

/-- Parses a line of the events section. The third piece of a background is accessed without a test.
-/
def Event.readAt (line : List Char) : Except OutOfRange (Reading Event) := do
  let fields := pieces ',' line
  if "0,0,".toList.isPrefixOf line then
    let filename ← pieceAt fields 2
    return .accepted (.background (String.ofList (trimQuotes (trim filename))))
  else if "2,".toList.isPrefixOf line then
    if fields.length < 3 then
      return .refused (.incompleteBreak (String.ofList line))
    else
      let start ← pieceAt fields 1
      let stop ← pieceAt fields 2
      match readInt32 (trim start), readInt32 (trim stop) with
      | some start, some stop => return .accepted (.pause ⟨start, stop⟩)
      | _, _ => return .refused (.unreadableBreak (String.ofList line))
  else
    return .silent

/-- Parses a line of the timing points. The beat length is accessed only after a valid offset. -/
def TimingPoint.readAt (line : List Char) : Except OutOfRange (Reading TimingPoint) := do
  let fields := (pieces ',' line).map trim
  if fields.length < 2 then
    return .refused (.incompleteTimingPoint (String.ofList line))
  else
    let first ← pieceAt fields 0
    match readOffset first with
    | none => return .refused (.unreadableOffset (String.ofList first))
    | some offset =>
      let second ← pieceAt fields 1
      match readFloating .double second with
      | none => return .refused (.unreadableBeatLength (String.ofList second))
      | some beatLength =>
        let further := fields.drop 2
        return ⟨some (ofFields offset beatLength further), furtherFault further⟩

namespace HitObject

/-- Parses one of the five integers of a hit object. -/
def numberAt (field : HitField) (place : Nat) : ExceptT Fault (Except OutOfRange) Int32 := do
  let text ← pieceAt fields place
  readField field text

/-- The pieces after the fifth comma: the parameters up to the last piece, and the last piece as the
hit sample. -/
def tailAt : Except OutOfRange (List Char × List Char) := do
  let last ← lastPlace fields
  let params ← if 6 < fields.length then sliceAt fields 5 last else pure []
  let sample ← if 5 < fields.length then pieceAt fields last else pure []
  return (join ',' params, sample)

/-- The object of the pieces of a line. The first integer that cannot be parsed ends the reading. -/
def ofFieldsAt : ExceptT Fault (Except OutOfRange) HitObject := do
  let x ← numberAt fields .x 0
  let y ← numberAt fields .y 1
  let offset ← numberAt fields .offset 2
  let type ← numberAt fields .kind 3
  let hitSound ← numberAt fields .hitSound 4
  let (params, sample) ← tailAt fields
  return {
    x, y, offset, type, hitSound
    extraParams := String.ofList params
    hitSample := String.ofList sample }

/-- Parses a line of the hit objects. -/
def readAt (line : List Char) : Except OutOfRange (Reading HitObject) := do
  let fields := pieces ',' line
  if fields.length < 5 then
    return .refused (.incompleteHitObject (String.ofList line))
  else
    return .ofExcept (← (ofFieldsAt fields).run)

end HitObject

/-- Parses a line of the section `area`. Sections of keys and values have no indexed access. -/
def Statement.readAt (area : Section) (line : List Char) : Except OutOfRange (Reading Statement) :=
  match area with
  | .events => return (← Event.readAt line).map .event
  | .timingPoints => return (← TimingPoint.readAt line).map .timingPoint
  | .hitObjects => return (← HitObject.readAt line).map .hitObject
  | _ => return Statement.read area line

namespace Reader

/-- Processes a line of content in the current section. -/
def readContentAt (r : Reader) (line : List Char) : Except OutOfRange Reader := do
  let reading ← Statement.readAt r.area line
  let r := { r with chart := r.chart.take reading }
  match reading.fault with
  | some fault => return r.report fault
  | none => return r

/-- Processes the first line of content, which may be a version marker. -/
def readFirstAt (r : Reader) (line : List Char) : Except OutOfRange Reader :=
  match readVersion? line with
  | some (.ok version) => return { r with chart := { r.chart with formatVersion := version } }
  | some (.error fault) => return r.report fault
  | none => r.readContentAt line

/-- Processes one line. -/
def feedAt (r : Reader) (raw : List Char) : Except OutOfRange Reader :=
  let line := trim raw
  let r := { r with lineCount := r.lineCount + 1 }
  match LineKind.of line with
  | .skipped => return r
  | .header opened => return { r with area := opened, started := true }
  | .content =>
    let r' := { r with started := true }
    if r.started then r'.readContentAt line else r'.readFirstAt line

end Reader

/-- Parses a whole chart file. -/
def Chart.parseAt (text : String) : Except OutOfRange (Chart × List Diagnostic) := do
  let reader ← (linesOf text.toList).foldlM Reader.feedAt {}
  return (reader.finish, reader.diagnostics.toList)

end Beatmap
