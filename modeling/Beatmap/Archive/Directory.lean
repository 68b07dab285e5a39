import Beatmap.Archive.ExtraField

/-!
# The central directory of a zip archive

A zip archive is read from its end. `directory` searches backwards for an end record, follows it to
the central directory, and returns the headers listed there (`Header`), or the `Defect` to report
when no end record leads to a readable directory.

Bytes may precede or follow the archive. Every position that carries the signature of an end record
is therefore tried, the last one first, and the directory is taken to start at the first directory
signature at or after the position that the end record states. If that is further on than stated,
all positions in the archive are shifted by the difference (`EndRecord.shift`).
-/

namespace Beatmap.Archive

open Beatmap.Bytes

/-- The signature of an end record. -/
def endMark : Nat := 0x06054B50

/-- The signature of a directory record. -/
def directoryMark : Nat := 0x02014B50

/-- The first `i` with `start ≤ i < start + count` that satisfies `p`. -/
def firstWhere (p : Nat → Bool) : (count start : Nat) → Option Nat
  | 0, _ => none
  | count + 1, start => if p start then some start else firstWhere p count (start + 1)

/-! ## End records -/

/-- The fixed part of an end record. -/
structure EndRecord where
  /-- The position of the record in the archive file. -/
  position : Nat
  /-- The number of the archive part that the record is in. -/
  part : Nat
  /-- The number of the archive part that the directory starts in. -/
  directoryPart : Nat
  /-- The number of directory records in this part. -/
  partCount : Nat
  /-- The number of directory records in all parts. -/
  totalCount : Nat
  /-- The stated position of the directory, relative to the start of the archive. -/
  directoryStart : Nat
  deriving DecidableEq, Repr

/-- Reads the end record at a position, including its comment, which must be complete. -/
def EndRecord.read (bytes : ByteArray) (position : Nat) : Except Defect EndRecord :=
  if bytes.size < position + 22 then .error .cutEndRecord
  else if bytes.size < position + 22 + numberAt bytes (position + 20) 2 then .error .cutComment
  else .ok {
    position := position
    part := numberAt bytes (position + 4) 2
    directoryPart := numberAt bytes (position + 6) 2
    partCount := numberAt bytes (position + 8) 2
    totalCount := numberAt bytes (position + 10) 2
    directoryStart := numberAt bytes (position + 16) 4 }

/-- The number of bytes that precede the archive in its file. -/
def EndRecord.shift (bytes : ByteArray) (e : EndRecord) : Except Defect Nat :=
  if e.totalCount = 0 then .ok (e.position - e.directoryStart)
  else if e.position ≤ e.directoryStart then .error .directoryBehindEnd
  else
    match firstWhere (isNumberAt bytes · 4 directoryMark) (e.position - e.directoryStart)
        e.directoryStart with
    | none => .error .noDirectory
    | some start => .ok (start - e.directoryStart)

/-! ## Directory records -/

/-- The header of an entry in the directory. -/
structure Header where
  name : String
  encrypted : Bool
  /-- The compression method. -/
  method : Nat
  /-- The CRC-32 value of the decompressed content. -/
  checksum : Nat
  /-- The declared size of the decompressed content. -/
  declared : Nat
  /-- The size of the compressed content. -/
  stored : Nat
  /-- The position of the local header. -/
  position : Nat
  deriving DecidableEq, Repr

/-- The method number of stored (uncompressed) content. -/
def Header.asIs : Nat := 0

/-- The method number of deflated content. -/
def Header.deflated : Nat := 8

/-- The method number of AES-encrypted content. -/
def Header.encryptedOtherwise : Nat := 99

/-- The least position that does not fit into eight bytes. -/
def positionLimit : Nat := 0x10000000000000000

/-- Reads the directory record at a position. Returns the header and the position of the next
record. -/
def Header.read (bytes : ByteArray) (shift position : Nat) : Except Defect (Header × Nat) := do
  if bytes.size < position + 46 then throw .cutDirectory
  unless isNumberAt bytes position 4 directoryMark do throw .strangeDirectory
  let flags := numberAt bytes (position + 8) 2
  let method := numberAt bytes (position + 10) 2
  let extraStart := position + 46 + numberAt bytes (position + 28) 2
  let commentStart := extraStart + numberAt bytes (position + 30) 2
  let stop := commentStart + numberAt bytes (position + 32) 2
  if bytes.size < stop then throw .cutPart
  let utf8 := flags.testBit 11
  let nameBytes := toList (bytes.extract (position + 46) extraStart)
  let written : Details := {
    nameBytes := nameBytes
    name := decodeLabel utf8 nameBytes
    comment := decodeLabel utf8 (toList (bytes.extract commentStart stop))
    declared := numberAt bytes (position + 24) 4
    stored := numberAt bytes (position + 20) 4
    position := numberAt bytes (position + 42) 4 }
  let details ← written.read (toList (bytes.extract extraStart commentStart))
  if method = encryptedOtherwise then throw .unknownEncryption
  if positionLimit ≤ details.position + shift then throw .positionTooLarge
  let header := {
    name := details.name
    encrypted := flags.testBit 0
    method := method
    checksum := numberAt bytes (position + 16) 4
    declared := details.declared
    stored := details.stored
    position := details.position + shift }
  return (header, stop)

/-- Adds a header. A header of the same name is replaced in its place. -/
def addHeader (headers : Array Header) (h : Header) : Array Header :=
  match headers.findIdx? (·.name == h.name) with
  | some i => headers.setIfInBounds i h
  | none => headers.push h

/-- Reads `count` consecutive directory records. -/
def readHeaders (bytes : ByteArray) (shift : Nat) : (count position : Nat) → Array Header →
    Except Defect (Array Header)
  | 0, _, headers => .ok headers
  | count + 1, position, headers =>
    match Header.read bytes shift position with
    | .error defect => .error defect
    | .ok (h, next) => readHeaders bytes shift count next (addHeader headers h)

/-- The headers of the directory that an end record points to. -/
def EndRecord.headers (bytes : ByteArray) (e : EndRecord) (shift : Nat) :
    Except Defect (Array Header) :=
  if e.part ≠ e.directoryPart then .error .severalParts
  else readHeaders bytes shift e.partCount (e.directoryStart + shift) #[]

/-! ## Searching for the end record -/

/-- The defects of the end-record candidates tried so far. -/
structure Refusals where
  /-- The defect of a candidate that leads to no directory. -/
  astray : Option Defect := none
  /-- The defect of the last candidate whose directory cannot be read. -/
  unreadable : Option Defect := none
  deriving DecidableEq, Repr

/-- The defect to report: an unreadable directory takes precedence. -/
def Refusals.reason (r : Refusals) : Defect := r.unreadable.getD (r.astray.getD .noEndRecord)

/-- The headers of an archive, trying the end-record candidates below a position. `refusals` holds
the defects of the candidates that were already tried. -/
def directoryBelow (bytes : ByteArray) : (position : Nat) → Refusals → Except Defect (Array Header)
  | 0, r => .error r.reason
  | position + 1, r =>
    if !isNumberAt bytes position 4 endMark then directoryBelow bytes position r
    else
      match EndRecord.read bytes position with
      | .error defect =>
        directoryBelow bytes position { r with astray := some (r.astray.getD defect) }
      | .ok e =>
        match e.shift bytes with
        | .error defect => directoryBelow bytes position { r with astray := some defect }
        | .ok shift =>
          match e.headers bytes shift with
          | .error defect => directoryBelow bytes position { r with unreadable := some defect }
          | .ok headers => .ok headers

/-- The headers of the central directory, in its order. -/
def directory (bytes : ByteArray) : Except Defect (List Header) :=
  (directoryBelow bytes bytes.size {}).map Array.toList

end Beatmap.Archive
