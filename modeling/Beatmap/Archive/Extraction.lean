import Beatmap.Archive.Entry
import Beatmap.Files.Path

/-!
# Extraction

The files of an archive are written into a working directory, one entry after another. An entry that
cannot be opened, decompressed or written is skipped with a complaint, and extraction continues with
the next entry. Every entry that extraction reaches has exactly one result (`Result`), and the
results stand in the order of the entries. A file result holds the content of its own entry, also
where a later entry of the same path overwrites the file on disk.

Before an entry with a path is decompressed, a buffer of its declared size is allocated
(`Entry.isOversized`). A size above the limit of one allocation is a panic, which ends the
extraction (`Extraction.panic?`). Allocations up to `largestBlock` are assumed to succeed.
-/

namespace Beatmap.Archive

open Beatmap.Files

/-- Why an entry was skipped. -/
inductive Complaint where
  | unopenable (index : Nat) (defect : EntryDefect)
  /-- The path leaves the working directory. -/
  | astray (name : String)
  | damaged (path : EntryPath) (defect : ContentDefect)
  /-- The file cannot be written. -/
  | unwritable (path : EntryPath) (refusal : Refusal)
  deriving DecidableEq, Repr

/-- The message of a complaint. -/
def Complaint.message : Complaint → String
  | unopenable index defect => s!"Cannot open archive entry #{index}: {defect.message}"
  | astray name => s!"Skipping entry with unsafe path: {name}"
  | damaged path defect => s!"Cannot decompress {path.text}: {defect.message}"
  | unwritable path refusal => s!"Cannot extract {path.text}: {refusal.message}"

/-- The result of extracting an entry. -/
inductive Result where
  /-- Nothing is done for a directory entry; directories are created when a file needs them. -/
  | directory
  | leftOut (complaint : Complaint)
  | file (path : EntryPath) (content : ByteArray)
  deriving DecidableEq

/-- The complaint about a skipped entry. -/
def Result.complaint? : Result → Option Complaint
  | leftOut complaint => some complaint
  | _ => none

/-- The path and content of a file entry. -/
def Result.file? : Result → Option (EntryPath × ByteArray)
  | file path content => some (path, content)
  | _ => none

/-! ## The working directory -/

/-- The route of the working directory. Its name represents one that does not exist before. -/
def workplace : Route := ["tmp", "members"]

/-- The tree that contains only the parent directory of the working directory. -/
def bareTree : Tree := Tree.empty.put ["tmp"] .directory

/-- The tree that contains only the working directory, which is empty. -/
def emptyWorkplace : Tree := (Tree.empty.put ["tmp"] .directory).put workplace .directory

/-- Creates the working directory. -/
def openWorkplace (t : Tree) : Except Refusal Tree :=
  match t.node? workplace.dropLast, t.node? workplace with
  | some .directory, none => .ok (t.put workplace .directory)
  | some .directory, some _ => .error .alreadyThere
  | some (.file _), _ => .error .notADirectory
  | none, _ => .error .notFound

/-- Removes the working directory and everything below it. -/
def closeWorkplace (t : Tree) : Tree := t.eraseAll workplace

/-! ## Writing one file -/

/-- The directory that the components of a path are resolved in. -/
def originOf (path : EntryPath) : Route := if path.isAbsolute then [] else workplace

/-- The largest number of bytes of a path relative to the working directory. The file system allows
4096 bytes, which include the path of the working directory. -/
def longestPathInside : Nat := 4079

/-- Whether a prefix `way` of a path exceeds the length that the file system allows. -/
def isTooFar (path way : EntryPath) : Bool :=
  (if path.isAbsolute then longestPath else longestPathInside) < way.text.utf8ByteSize

/-- The components of the directory that a path leads into. -/
def wayTo (path : EntryPath) : EntryPath := (path.filter (!isIdle ·)).dropLast

/-- Creates the missing directories on the way to a file. -/
def makeWay (t : Tree) (path : EntryPath) : Tree × Option Refusal :=
  if isTooFar path (goBack path) then (t, some .nameTooLong)
  else t.createDirectories (originOf path) (wayTo path)

/-- Writes a file whose directory exists. -/
def writeEntry (t : Tree) (path : EntryPath) (content : ByteArray) : Except Refusal Tree :=
  if isTooFar path path then .error .nameTooLong else t.writeFile (originOf path) path content

/-- Removes a file. -/
def removeEntry (t : Tree) (path : EntryPath) : Tree :=
  if isTooFar path path then t else t.removeFile (originOf path) path

/-- Writes a file, creating missing directories. If the write is refused, a partial file is removed.
-/
def place (t : Tree) (path : EntryPath) (content : ByteArray) : Tree × Option Refusal :=
  match makeWay t path with
  | (t, some refusal) => (removeEntry t path, some refusal)
  | (t, none) =>
    match writeEntry t path content with
    | .error refusal => (removeEntry t path, some refusal)
    | .ok t => (t, none)

/-! ## Extracting all entries -/

/-- Extracts the entry at an index. Returns the resulting tree and the result of the entry. -/
def extractEntry (t : Tree) (index : Nat) : Entry → Tree × Result
  | .unopenable defect => (t, .leftOut (.unopenable index defect))
  | .directory => (t, .directory)
  | .astray name => (t, .leftOut (.astray name))
  | .damaged path _ defect => (t, .leftOut (.damaged path defect))
  | .file path _ content =>
    match place t path content with
    | (t, none) => (t, .file path content)
    | (t, some refusal) => (t, .leftOut (.unwritable path refusal))

/-- A panic of the program. -/
inductive Panic where
  /-- An allocation above the limit of one allocation. -/
  | capacityOverflow
  deriving DecidableEq, Repr

/-- The message of a panic. -/
def Panic.message : Panic → String
  | capacityOverflow => "capacity overflow"

/-- The state of an extraction. -/
structure Extraction where
  tree : Tree := emptyWorkplace
  /-- The results of the entries so far, in order. -/
  results : Array Result := #[]
  /-- The panic that ended the extraction, if any. -/
  panic? : Option Panic := none

namespace Extraction

/-- Extracts the next entry, unless the extraction has panicked. -/
def take (x : Extraction) (entry : Entry) : Extraction :=
  if x.panic?.isSome then x
  else if entry.isOversized then { x with panic? := some .capacityOverflow }
  else
    let (tree, result) := extractEntry x.tree x.results.size entry
    { x with tree, results := x.results.push result }

/-- Extracts a list of entries, starting from the tree `start`. -/
def ofEntries (entries : List Entry) (start : Tree := emptyWorkplace) : Extraction :=
  entries.foldl take { tree := start }

/-- The complaints, in the order of the entries. -/
def complaints (x : Extraction) : List Complaint := x.results.toList.filterMap Result.complaint?

/-- The files with their paths, in the order of the entries. -/
def files (x : Extraction) : List (EntryPath × ByteArray) := x.results.toList.filterMap Result.file?

end Extraction

end Beatmap.Archive
