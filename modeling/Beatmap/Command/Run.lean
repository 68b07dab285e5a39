import Beatmap.Command.Options
import Beatmap.Command.Report
import Beatmap.Command.Scan

/-!
# Running the command

`run` maps the words of the command line and the tree of files to the output, the exit code and the
resulting tree. A failed archive does not stop the run. The run stops when the input does not exist,
when an output cannot be written, and when the extraction of an archive panics; in the last case the
exit code is `panicExit`, and neither the report nor the list of failures is written.

Not modelled are the progress bar, log messages, interruption by the user, and the source location
in front of the message of a panic.
-/

namespace Beatmap.Command

open Beatmap.Files

/-- The result of a run. -/
structure Outcome where
  exit : Nat := 0
  stdout : String := ""
  stderr : String := ""
  tree : Tree

/-- Why a run stops. -/
inductive Stop where
  | noInput (input : String)
  /-- The parent directories of the list of failures cannot be created. -/
  | noWayToFailures (refusal : Refusal)
  | unwritableFailures (path : String) (refusal : Refusal)
  | unwritableReport (path : String) (refusal : Refusal)
  deriving DecidableEq, Repr

/-- A message followed by its cause. -/
def causedBy (text : String) (cause : Refusal) : String :=
  s!"Error: {text}\n\nCaused by:\n    {cause.message}\n"

/-- The message of a stopped run. -/
def Stop.message : Stop → String
  | noInput input => s!"Error: Input does not exist: {input}\n"
  | noWayToFailures refusal => s!"Error: {refusal.message}\n"
  | unwritableFailures path refusal => causedBy s!"Failed to open fail list: {path}" refusal
  | unwritableReport path refusal => causedBy s!"Failed to create {path}" refusal

/-- Appends lines to the list of failures, creating the file if it does not exist. Does nothing if
there are no lines. -/
def appendFailures (t : Tree) (place : Route) (path : String) (lines : List String) :
    Tree × Option Stop :=
  if lines = [] then (t, none)
  else match t.createParents place path with
    | (t, some refusal) => (t, some (.noWayToFailures refusal))
    | (t, none) =>
      match t.updatePath place path (· ++ (String.join (lines.map (· ++ "\n"))).toUTF8) with
      | .error refusal => (t, some (.unwritableFailures path refusal))
      | .ok t => (t, none)

/-- Writes the report, replacing an existing file. -/
def writeReport (t : Tree) (place : Route) (path : String) (text : String) : Tree × Option Stop :=
  match t.updatePath place path fun _ => text.toUTF8 with
  | .error refusal => (t, some (.unwritableReport path refusal))
  | .ok t => (t, none)

/-- Runs the second step if the first one succeeded. -/
def andThen (done : Tree × Option Stop) (next : Tree → Tree × Option Stop) : Tree × Option Stop :=
  match done with
  | (t, none) => next t
  | stopped => stopped

/-- Writes to an optional path. -/
def writeTo (t : Tree) (path? : Option String) (write : String → Tree × Option Stop) :
    Tree × Option Stop :=
  match path? with
  | some path => write path
  | none => (t, none)

/-- Writes the requested output files, the list of failures first. -/
def writeOutputs (t : Tree) (place : Route) (options : Options) (tally : Tally) :
    Tree × Option Stop :=
  andThen (writeTo t options.failures (appendFailures t place · tally.failures.toList))
    fun t => writeTo t options.report (writeReport t place · (report tally.entries.toList))

/-- For a number of threads, the pool used for the archive at each path. -/
def Pools : Type := Option Nat → String → Pool

/-- Pools that finish all charts in order. -/
def Pools.inOrder : Pools := fun _ _ => .inOrder

/-- The pool for the archive at a path, unless charts are parsed sequentially. -/
def poolFor (options : Options) (pools : Pools) (path : String) : Option Pool :=
  if options.sequential then none else some (pools options.threads path)

/-- The exit code of a panicking program. -/
def panicExit : Nat := 101

/-- Processes the archives of an input and writes the outputs. -/
def runOn (t : Tree) (place : Route) (pools : Pools) (options : Options) (paths : List String)
    (entriesOf : ByteArray → Except Archive.Defect (List Archive.Entry)) : Outcome :=
  let announcement := s!"Found {paths.length} .osz files\n"
  match Tally.addPaths (ReportEntry.ofPath place (poolFor options pools) entriesOf) t {} paths with
  | (t, .error panic) =>
    { exit := panicExit, stdout := announcement, stderr := panic.message ++ "\n", tree := t }
  | (t, .ok tally) =>
    match writeOutputs t place options tally with
    | (t, none) => { stdout := announcement ++ tally.summary, tree := t }
    | (t, some stop) => { exit := 1, stdout := announcement, stderr := stop.message, tree := t }

/-- Runs the command in the directory `place` of a tree. The parameter `listing` gives the directory
listings and `entriesOf` the entries of an archive. -/
def run (t : Tree) (place : Route) (words : List String) (pools : Pools := .inOrder)
    (listing : Listing := t.listing)
    (entriesOf : ByteArray → Except Archive.Defect (List Archive.Entry) := Archive.entries) :
    Outcome :=
  match Options.ofWords? words with
  | none => { exit := 2, tree := t }
  | some options =>
    match archivePaths t place options.input listing with
    | .error _ => { exit := 1, stderr := (Stop.noInput options.input).message, tree := t }
    | .ok [] => { stdout := "No .osz files found.\n", tree := t }
    | .ok paths => runOn t place pools options paths entriesOf

end Beatmap.Command
