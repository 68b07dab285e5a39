import Beatmap.Json.Printer
import Beatmap.Mapset.Processing
import Beatmap.Store.Mapset

/-!
# The report

The report has one entry for every archive, with either a mapset or an error; an entry with an error
has no diagnostics and no problems. `Tally.addPaths` processes the archives in order, each in the
tree that the previous one leaves, and collects the report entries, the lines for the list of
failures, and the numbers of valid and invalid mapsets. A panic aborts the loop, so that no tally is
returned.
-/

namespace Beatmap.Command

open Beatmap.Json

/-- An entry of the report. -/
structure ReportEntry where
  /-- The file name of the archive. -/
  file : String
  outcome : Except Failure Processed

namespace ReportEntry

/-- The entry for the result of processing an archive, or the panic. -/
def ofResult (file : String) : Except Abort Processed → Except Archive.Panic ReportEntry
  | .ok p => .ok ⟨file, .ok p⟩
  | .error (.failed failure) => .ok ⟨file, .error failure⟩
  | .error (.panicked panic) => .error panic

/-- Processes the archive at a path. -/
def ofPath (place : Files.Route) (pool : String → Option Pool)
    (entriesOf : ByteArray → Except Archive.Defect (List Archive.Entry)) (t : Files.Tree)
    (path : String) : Files.Tree × Except Archive.Panic ReportEntry :=
  let (t, result) := Processed.ofFile t place path (pool path) entriesOf
  (t, ofResult (Files.lastName path) result)

/-- A list of strings as a JSON array. -/
def texts (items : List String) : Value := Value.list Value.text items

/-- An entry as a JSON object. -/
def toJson (e : ReportEntry) : Value :=
  match e.outcome with
  | .ok p =>
    Value.record ["file", "mapset", "diagnostics", "problems"]
      [Value.text e.file, p.mapset.toJson, texts (p.remarks.map (·.message)),
        texts (p.problems.map (·.message))]
  | .error failure =>
    Value.record ["file", "diagnostics", "problems", "error"]
      [Value.text e.file, texts [], texts [], Value.text failure.message]

end ReportEntry

/-- The text of the report. -/
def report (entries : List ReportEntry) : String :=
  String.ofList (Value.list ReportEntry.toJson entries).pretty

/-- The accumulated result of a run. -/
structure Tally where
  /-- The entries of the report. -/
  entries : Array ReportEntry := #[]
  /-- The lines for the list of failures. -/
  failures : Array String := #[]
  valid : Nat := 0
  invalid : Nat := 0

namespace Tally

/-- Adds the entry of one more archive. -/
def add (tally : Tally) (e : ReportEntry) : Tally :=
  match e.outcome with
  | .ok p =>
    if p.isValid then
      { tally with entries := tally.entries.push e, valid := tally.valid + 1 }
    else
      { tally with entries := tally.entries.push e, invalid := tally.invalid + 1 }
  | .error failure =>
    { tally with
      entries := tally.entries.push e
      failures := tally.failures.push s!"{e.file}: {failure.message}" }

/-- Processes the archives at the given paths in order, passing on the tree, and adds their entries.
-/
def addPaths (entryOf : Files.Tree → String → Files.Tree × Except Archive.Panic ReportEntry)
    (t : Files.Tree) (tally : Tally) : List String → Files.Tree × Except Archive.Panic Tally
  | [] => (t, .ok tally)
  | path :: rest =>
    match entryOf t path with
    | (t, .error panic) => (t, .error panic)
    | (t, .ok entry) => addPaths entryOf t (tally.add entry) rest

/-- The summary printed at the end of a run. -/
def summary (tally : Tally) : String :=
  "\n✅ Summary:\n"
    ++ s!"   Valid:       {tally.valid}\n"
    ++ s!"   Invalid:     {tally.invalid}\n"
    ++ s!"   Failed:      {tally.failures.size}\n"

end Tally

end Beatmap.Command
