import Beatmap.Archive.Fault
import Beatmap.Hash.Crc32
import Beatmap.Text.CodePage437
import Beatmap.Text.Utf8

/-!
# Extra fields

A directory record gives the name, the comment, the sizes and the position of an entry. The extra
fields after the name can replace some of these values: the name and the comment by a form in UTF-8,
and a `saturated` size or position of four bytes by one of eight bytes.

Each field consists of its kind, its length and its content. A field that replaces a text holds the
checksum of the text that it was made for. Fields with timestamps are checked for well-formedness,
and fields of other kinds are skipped. `Details.read` processes all fields of a record in order and
returns the resulting values or the first defect.
-/

namespace Beatmap.Archive

open Beatmap.Bytes (numberOf)

/-! ## Reading from an area -/

/-- The first `count` bytes of an area and the rest of it. -/
def takeBytes (count : Nat) (area : List UInt8) : Except Defect (List UInt8 × List UInt8) :=
  if area.length < count then .error .cutValue else .ok (area.splitAt count)

/-- The little-endian number in the first `count` bytes of an area, and the rest of the area. -/
def takeNumber (count : Nat) (area : List UInt8) : Except Defect (Nat × List UInt8) := do
  let (bytes, rest) ← takeBytes count area
  return (numberOf bytes, rest)

/-! ## Replaceable values -/

/-- Decodes a name or a comment. -/
def decodeLabel (utf8 : Bool) (label : List UInt8) : String :=
  String.ofList (if utf8 then Text.Utf8.decode label else Text.CodePage437.decode label)

/-- The values of a directory record that extra fields can replace. -/
structure Details where
  /-- The bytes of the name. -/
  nameBytes : List UInt8
  name : String
  comment : String
  /-- The declared size of the decompressed content. -/
  declared : Nat
  /-- The size of the compressed content. -/
  stored : Nat
  /-- The position of the local header. -/
  position : Nat
  deriving DecidableEq, Repr

/-! ## Names and comments -/

/-- A replacement for a name or a comment. -/
structure Replacement where
  /-- The checksum of the text that it replaces. -/
  checksum : Nat
  bytes : List UInt8
  deriving DecidableEq, Repr

namespace Replacement

/-- The number of bytes before the text: a version, which is ignored, and the checksum. -/
def headLength : Nat := 5

/-- Reads the content of a replacement field of the given length. -/
def read (length : Nat) (area : List UInt8) : Except Defect Replacement := do
  let (_, area) ← takeBytes 1 area
  let (checksum, area) ← takeNumber 4 area
  if length < headLength then throw .shortReplacement
  let (bytes, _) ← takeBytes (length - headLength) area
  return { checksum, bytes }

/-- The replacement text, if its checksum is that of `label`. -/
def textFor (r : Replacement) (label : List UInt8) : Except Defect String :=
  if (Hash.Crc32.check (Bytes.ofList label)).toNat ≠ r.checksum then .error .strayReplacement
  else match String.fromUTF8? (Bytes.ofList r.bytes) with
    | some text => .ok text
    | none => .error .unreadableReplacement

end Replacement

/-! ## Timestamps -/

/-- The number of set bits of a byte. -/
def onesOf (b : UInt8) : Nat := (List.range 8).countP b.toNat.testBit

/-- Checks the content of a timestamp field. The flags in its first byte determine the number of
timestamps in this field or in the local header. Length five, for one timestamp, is accepted for all
flags. -/
def checkTimes (length : Nat) (area : List UInt8) : Except Defect Unit := do
  if length = 0 then throw .emptyTimes
  let (kinds, area) ← takeNumber 1 area
  if length ≠ 5 ∧ length ≠ 1 + 4 * onesOf kinds.toUInt8 then
    throw (.unfitTimes length kinds.toUInt8)
  let _ ← takeBytes (length - 1) area

/-- Checks the content of a field with NTFS timestamps: one known attribute with three timestamps of
eight bytes each. -/
def checkSystemTimes (length : Nat) (area : List UInt8) : Except Defect Unit := do
  if length ≠ 32 then throw .systemTimesLength
  let (_, area) ← takeBytes 4 area
  let (kind, area) ← takeNumber 2 area
  if kind ≠ 1 then throw .systemTimesAttribute
  let (size, area) ← takeNumber 2 area
  if size ≠ 24 then throw .systemTimesSize
  let _ ← takeBytes 24 area

/-! ## 64-bit sizes -/

/-- The four-byte value that refers to a 64-bit size. -/
def saturated : Nat := 0xFFFFFFFF

/-- From this length on, a field holds all three values, whether or not they are saturated. -/
def allSizesLength : Nat := 24

/-- Reads one value of a field of 64-bit sizes: the number of bytes consumed, the resulting value,
and the rest of the area. -/
def takeLarge (length value : Nat) (area : List UInt8) :
    Except Defect (Nat × Nat × List UInt8) := do
  if length < allSizesLength ∧ value ≠ saturated then return (0, value, area)
  let (large, area) ← takeNumber 8 area
  return (8, large, area)

/-- Reads the two sizes and the position from a field of the given length. -/
def Details.readLargeSizes (d : Details) (length : Nat) (area : List UInt8) :
    Except Defect Details := do
  let (usedFirst, declared, area) ← takeLarge length d.declared area
  let (usedSecond, stored, area) ← takeLarge length d.stored area
  let (usedThird, position, area) ← takeLarge length d.position area
  let used := usedFirst + usedSecond + usedThird
  if length < used then throw .largeSizesLength
  let _ ← takeBytes (length - used) area
  return { d with declared, stored, position }

/-! ## All fields -/

/-- The kinds of extra fields. -/
inductive FieldKind where
  | largeSizes
  | name
  | comment
  | times
  | systemTimes
  | other
  deriving DecidableEq, Repr

/-- The kind of field with a given number. -/
def FieldKind.ofNumber : Nat → FieldKind
  | 0x0001 => largeSizes
  | 0x7075 => name
  | 0x6375 => comment
  | 0x5455 => times
  | 0x000A => systemTimes
  | _ => other

namespace Details

/-- Processes the content of one field at the start of an area. -/
def readField (d : Details) (kind : FieldKind) (length : Nat) (area : List UInt8) :
    Except Defect Details :=
  match kind with
  | .largeSizes => d.readLargeSizes length area
  | .name => do
    let r ← Replacement.read length area
    return { d with nameBytes := r.bytes, name := ← r.textFor d.nameBytes }
  | .comment => do
    let r ← Replacement.read length area
    return { d with comment := ← r.textFor (Bytes.toList d.comment.toUTF8) }
  | .times => do
    checkTimes length area
    return d
  | .systemTimes => do
    checkSystemTimes length area
    return d
  | .other => if area.length < length then .error .cutField else .ok d

/-- Processes the fields of an area in order. A single trailing byte is ignored. -/
def read (d : Details) (area : List UInt8) : Except Defect Details :=
  match area with
  | [] | [_] => .ok d
  | [_, _] | [_, _, _] => .error .cutFieldHead
  | k :: k' :: n :: n' :: rest =>
    match d.readField (.ofNumber (numberOf [k, k'])) (numberOf [n, n']) rest with
    | .error defect => .error defect
    | .ok d => d.read (rest.drop (numberOf [n, n']))
  termination_by area.length
  decreasing_by simp only [List.length_drop, List.length_cons]; omega

end Details

end Beatmap.Archive
