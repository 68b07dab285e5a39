import Beatmap.Archive.Directory
import Beatmap.Archive.EntryPath
import Beatmap.Deflate.Inflate
import Beatmap.Hash.Crc32

/-!
# Entries of an archive

`Header.entry` classifies one entry of an archive by a fixed sequence of checks: whether it can be
opened, whether it is a directory, where its path leads, and whether its content decompresses to the
stated checksum. The classification of an entry does not depend on the other entries.

An entry with a path also carries the size that the archive *declares* for its content. Nothing
compares the declared size with the content, so it need not be the number of bytes that
decompression yields.

`entries` covers stored and deflated content and 64-bit sizes of entries. Encrypted content and
other compression methods yield entries that cannot be opened, and an archive with a zip64 end
record is read by its ordinary end record. The theorems on processing and on whole runs take the
function from bytes to entries as a parameter and therefore do not depend on these restrictions.
-/

namespace Beatmap.Archive

open Beatmap.Bytes

/-- An entry of an archive, classified. -/
inductive Entry where
  | unopenable (defect : EntryDefect)
  | directory
  /-- The path of the entry leaves the directory that it is extracted to. -/
  | astray (name : String)
  | damaged (path : EntryPath) (declared : Nat) (defect : ContentDefect)
  | file (path : EntryPath) (declared : Nat) (content : ByteArray)
  deriving DecidableEq

/-- The size limit of one allocation, `isize::MAX` on a 64-bit target. -/
def largestBlock : Nat := 0x7FFFFFFFFFFFFFFF

/-- The declared size of an entry for which a buffer is allocated. -/
def Entry.declared? : Entry → Option Nat
  | damaged _ declared _ | file _ declared _ => some declared
  | unopenable _ | directory | astray _ => none

/-- Whether a buffer of the declared size exceeds the limit of one allocation. -/
def Entry.isOversized (entry : Entry) : Bool := entry.declared?.any (largestBlock < ·)

/-- The signature of a local header. -/
def contentMark : Nat := 0x04034B50

namespace Header

/-- The position of the content of an entry, right after its local header. -/
def contentStart (bytes : ByteArray) (h : Header) : Except EntryDefect Nat :=
  if h.encrypted then .error .encrypted
  else if bytes.size < h.position + 30 then .error .cutHead
  else if !isNumberAt bytes h.position 4 contentMark then .error .noHead
  else if h.method ≠ asIs ∧ h.method ≠ deflated then .error .unknownMethod
  else
    .ok (h.position + 30 + numberAt bytes (h.position + 26) 2 + numberAt bytes (h.position + 28) 2)

/-- The defect of content whose decompression fails. -/
def defectOf : Deflate.Halt → ContentDefect
  | .exhausted => .incomplete
  | .corrupt => .corrupt

/-- Decompresses the content of an entry. -/
def unpack (h : Header) (stored : ByteArray) : Except ContentDefect ByteArray :=
  if h.method = deflated then (Deflate.inflate stored).mapError defectOf else .ok stored

/-- The content whose compressed form starts at a position, truncated at the end of the archive. -/
def content (bytes : ByteArray) (h : Header) (start : Nat) : Except ContentDefect ByteArray :=
  match h.unpack (slice bytes start h.stored) with
  | .error defect => .error defect
  | .ok content =>
    if (Hash.Crc32.check content).toNat = h.checksum then .ok content else .error .wrongChecksum

/-- Whether the entry is a directory, that is, whether its name ends with a separator. -/
def isDirectory (h : Header) : Bool := h.name.toList.getLast?.any Path.isSeparator

/-- Classifies the entry. -/
def entry (bytes : ByteArray) (h : Header) : Entry :=
  match h.contentStart bytes with
  | .error defect => .unopenable defect
  | .ok start =>
    if h.isDirectory then .directory
    else match EntryPath.ofName? h.name.toList with
      | none => .astray h.name
      | some path =>
        match h.content bytes start with
        | .error defect => .damaged path h.declared defect
        | .ok content => .file path h.declared content

end Header

/-- The entries of an archive, in the order of its directory. -/
def entries (bytes : ByteArray) : Except Defect (List Entry) :=
  (directory bytes).map fun headers => headers.map (·.entry bytes)

end Beatmap.Archive
