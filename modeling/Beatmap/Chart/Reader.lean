import Beatmap.Chart.Basic

/-!
# Reading charts line by line

A `Reader` processes the lines of a chart file in order. Besides the chart and the diagnostics it
holds the current section, the number of lines read, and whether a line of content has been read,
since only the first such line may be a version marker. Blank lines and comments only advance the
line number.

`Chart.parse` reads a whole text and never fails.
-/

namespace Beatmap

open Beatmap.Text Beatmap.Number

/-- The kind of a trimmed line. -/
inductive LineKind where
  /-- A blank line or a comment. -/
  | skipped
  | header (opened : Section)
  | content
  deriving DecidableEq, Repr

/-- Classifies a trimmed line. -/
def LineKind.of (line : List Char) : LineKind :=
  match line with
  | [] => skipped
  | '/' :: '/' :: _ => skipped
  | _ =>
    match Section.ofHeader? line with
    | some opened => header opened
    | none => content

/-- The text after the last `" v"` of a line. `found` is the text after the last occurrence so far.
-/
def afterVersionMark (found : Option (List Char)) : List Char → Option (List Char)
  | [] => found
  | c :: rest =>
    let here := if c = ' ' ∧ rest.head? = some 'v' then some rest.tail else found
    afterVersionMark here rest

/-- The version stated by a line such as `osu file format v14`: `none` if the line has no version
marker, and a fault if the text after the marker is not an integer. -/
def readVersion? (line : List Char) : Option (Except Fault Int32) :=
  if line.head? = some '[' then none
  else (afterVersionMark none line).map fun version =>
    match readInt32 (trim version) with
    | some n => .ok n
    | none => .error (.unreadableVersion (String.ofList version))

/-- The state of reading a chart. -/
structure Reader where
  chart : Chart := {}
  area : Section := .preamble
  /-- The number of lines read. -/
  lineCount : Nat := 0
  /-- Whether a line of content has been read. -/
  started : Bool := false
  diagnostics : Array Diagnostic := #[]
  deriving DecidableEq

namespace Reader

/-- Records a fault of the current line. -/
def report (r : Reader) (fault : Fault) : Reader :=
  { r with diagnostics := r.diagnostics.push ⟨r.lineCount, r.area, fault⟩ }

/-- Processes a line of content in the current section. -/
def readContent (r : Reader) (line : List Char) : Reader :=
  let reading := Statement.read r.area line
  let r := { r with chart := r.chart.take reading }
  match reading.fault with
  | some fault => r.report fault
  | none => r

/-- Processes the first line of content, which may be a version marker. -/
def readFirst (r : Reader) (line : List Char) : Reader :=
  match readVersion? line with
  | some (.ok version) => { r with chart := { r.chart with formatVersion := version } }
  | some (.error fault) => r.report fault
  | none => r.readContent line

/-- Processes one line. -/
def feed (r : Reader) (raw : List Char) : Reader :=
  let line := trim raw
  let r := { r with lineCount := r.lineCount + 1 }
  match LineKind.of line with
  | .skipped => r
  | .header opened => { r with area := opened, started := true }
  | .content =>
    let r' := { r with started := true }
    if r.started then r'.readContent line else r'.readFirst line

/-- The chart of the lines read so far, with its metrics. -/
def finish (r : Reader) : Chart := r.chart.withMetrics

/-- Processes a list of lines. -/
def feedAll (r : Reader) (lines : List (List Char)) : Reader := lines.foldl feed r

end Reader

/-- The lines of a text, without a byte-order mark at its start. -/
def linesOf (text : List Char) : List (List Char) :=
  pieces '\n' <| match text with
    | '\ufeff' :: rest => rest
    | _ => text

/-- Parses a chart from its lines. -/
def Chart.ofLines (lines : List (List Char)) : Chart × List Diagnostic :=
  let reader := Reader.feedAll {} lines
  (reader.finish, reader.diagnostics.toList)

/-- Parses a whole chart file. -/
def Chart.parse (text : String) : Chart × List Diagnostic := ofLines (linesOf text.toList)

end Beatmap
