import Beatmap.Archive.Extraction
import Beatmap.Chart.Reader
import Beatmap.Files.Path
import Beatmap.Mapset.Pool
import Beatmap.Mapset.Problem
import Beatmap.Text.Utf8

/-!
# Processing an archive

`Processed.ofArchive` maps the bytes of an archive to a mapset, the diagnostics, and the problems of
the mapset. It fails (`Abort`) if the archive cannot be opened, if it contains no chart, or if its
extraction panics.

The entries are extracted into a working directory, which is removed at the end. `ofArchiveIn` works
in a given tree of files and also returns the resulting tree, which differs from the given one only
if an entry leads out of the working directory. `ofArchive` starts from the tree that contains only
the parent of the working directory. Both take the function `entriesOf` from bytes to entries as a
parameter.

Charts are parsed sequentially or by a pool. In both cases the charts and the diagnostics are in the
order of the members, with the diagnostics of the archive first.
-/

namespace Beatmap

/-- Why an archive is rejected. -/
inductive Failure where
  | notAnArchive (defect : Archive.Defect)
  | noCharts
  | unreadable (refusal : Files.Refusal)
  /-- The working directory cannot be created. -/
  | noWorkplace (refusal : Files.Refusal)
  deriving DecidableEq, Repr

/-- The message of a failure. -/
def Failure.message : Failure → String
  | notAnArchive defect => s!"Invalid OSZ file: not a readable zip archive ({defect.message})"
  | noCharts => "No valid beatmap files found in OSZ"
  | unreadable refusal => s!"I/O error: {refusal.message}"
  | noWorkplace refusal => s!"I/O error: {refusal.message} at path \"{placeText}\""
where
  /-- The path of the working directory. -/
  placeText : String := "/" ++ String.intercalate "/" Archive.workplace

/-- Why there is no result: a failure, which is returned, or a panic, which terminates the program.
-/
inductive Abort where
  | failed (failure : Failure)
  | panicked (panic : Archive.Panic)
  deriving DecidableEq, Repr

/-- A diagnostic of processing an archive. -/
inductive Remark where
  | entry (complaint : Archive.Complaint)
  | line (path : String) (diagnostic : Diagnostic)
  deriving DecidableEq, Repr

/-- The message of a diagnostic. -/
def Remark.message : Remark → String
  | entry complaint => complaint.message
  | line path diagnostic => s!"{path}: {diagnostic.display}"

/-- Decodes bytes as UTF-8, replacing malformed sequences. -/
def textOfBytes (bytes : ByteArray) : List Char := Text.Utf8.decode (Bytes.toList bytes)

/-- Parses the chart of a member and returns its diagnostics. -/
def Chart.ofMember (m : Member) : Chart × List Remark :=
  let (chart, diagnostics) := ofLines (linesOf (textOfBytes m.content))
  ({ chart with sourceFilename := m.path, contentHash := m.contentHash },
    diagnostics.map (.line m.path))

/-- The result of processing an archive. -/
structure Processed where
  mapset : Mapset
  remarks : List Remark
  problems : List Problem

namespace Processed

/-- Whether the mapset has no problems. -/
def isValid (p : Processed) : Bool := p.problems.isEmpty

/-- Parses the chart members. -/
def readCharts (pool : Option Pool) (members : List Member) : List (Chart × List Remark) :=
  let chartMembers := members.filter (·.role == .chart)
  match pool with
  | some pool => pool.collect Chart.ofMember chartMembers
  | none => chartMembers.map Chart.ofMember

/-- Adds a chart and its diagnostics. -/
def addChart (done : List Chart × List Remark) (read : Chart × List Remark) :
    List Chart × List Remark :=
  (done.1 ++ [read.1], done.2 ++ read.2)

/-- Separates the charts from their diagnostics, which are appended to `remarks`. -/
def takeApart (remarks : List Remark) (read : List (Chart × List Remark)) :
    List Chart × List Remark :=
  read.foldl addChart ([], remarks)

/-- The members of an extraction. -/
def membersOf (extraction : Archive.Extraction) : List Member :=
  extraction.files.map fun (path, content) => Member.ofContent path.text content

/-- The result for an extraction of the entries of an archive. -/
def ofExtraction (filename : String) (archive : ByteArray) (pool : Option Pool)
    (extraction : Archive.Extraction) : Except Abort Processed :=
  match extraction.panic? with
  | some panic => .error (.panicked panic)
  | none =>
    let members := membersOf extraction
    let (charts, remarks) := takeApart (extraction.complaints.map .entry) (readCharts pool members)
    if charts.isEmpty then .error (.failed .noCharts)
    else
      let mapset := Mapset.fillFromFirstChart {
        archiveFilename := filename
        archiveHash := fingerprint archive
        archiveSize := archive.size.toUInt64
        charts := charts
        members := members }
      .ok { mapset, remarks, problems := mapset.problems }

/-- The result for an archive with the given entries. -/
def ofEntries (filename : String) (archive : ByteArray) (pool : Option Pool)
    (entries : List Archive.Entry) : Except Abort Processed :=
  ofExtraction filename archive pool (.ofEntries entries)

/-- The result for an archive extracted in a tree of files, and the resulting tree. The entries are
given by `entriesOf`. -/
def ofArchiveIn (t : Files.Tree) (filename : String) (archive : ByteArray) (pool : Option Pool)
    (entriesOf : ByteArray → Except Archive.Defect (List Archive.Entry)) :
    Files.Tree × Except Abort Processed :=
  match Archive.openWorkplace t with
  | .error refusal => (t, .error (.failed (.noWorkplace refusal)))
  | .ok work =>
    match entriesOf archive with
    | .error defect => (Archive.closeWorkplace work, .error (.failed (.notAnArchive defect)))
    | .ok entries =>
      let extraction := Archive.Extraction.ofEntries entries work
      (Archive.closeWorkplace extraction.tree, ofExtraction filename archive pool extraction)

/-- The result for an archive. The entries are given by `entriesOf`. -/
def ofArchive (filename : String) (archive : ByteArray) (pool : Option Pool := some .inOrder)
    (entriesOf : ByteArray → Except Archive.Defect (List Archive.Entry) := Archive.entries) :
    Except Abort Processed :=
  (ofArchiveIn Archive.bareTree filename archive pool entriesOf).2

/-- The result for an archive in a file, and the resulting tree. -/
def ofFile (t : Files.Tree) (place : Files.Route) (path : String)
    (pool : Option Pool := some .inOrder)
    (entriesOf : ByteArray → Except Archive.Defect (List Archive.Entry) := Archive.entries) :
    Files.Tree × Except Abort Processed :=
  match t.readPath place path with
  | .error refusal => (t, .error (.failed (.unreadable refusal)))
  | .ok archive => ofArchiveIn t (Files.lastName path) archive pool entriesOf

end Processed

end Beatmap
