/-!
# Defects of archives

* `Defect`: the archive cannot be opened.
* `EntryDefect`: one entry of an opened archive cannot be opened.
* `ContentDefect`: the content of one entry cannot be decompressed.

Each type has a function `message`, which gives the text used in failures and diagnostics.
-/

namespace Beatmap.Archive

/-- Why an archive cannot be opened. -/
inductive Defect where
  /-- No end record was found. -/
  | noEndRecord
  /-- The end record is truncated. -/
  | cutEndRecord
  /-- The comment of the end record is truncated. -/
  | cutComment
  /-- The end record states a position of the directory behind itself. -/
  | directoryBehindEnd
  /-- No directory record was found before the end record. -/
  | noDirectory
  /-- The archive is one part of a multi-part archive. -/
  | severalParts
  /-- The directory is truncated. -/
  | cutDirectory
  /-- A directory record has a wrong signature. -/
  | strangeDirectory
  /-- A name, an extra area or a comment in the directory is truncated. -/
  | cutPart
  /-- The kind or the length of an extra field is truncated. -/
  | cutFieldHead
  /-- The content of an extra field that is skipped is truncated. -/
  | cutField
  /-- The content of an extra field that is read is truncated. -/
  | cutValue
  /-- An extra field is too short for a replacement text. -/
  | shortReplacement
  /-- The checksum of a replacement text does not match the text to be replaced. -/
  | strayReplacement
  /-- A replacement text is not valid UTF-8. -/
  | unreadableReplacement
  /-- A timestamp field has no flags. -/
  | emptyTimes
  /-- A timestamp field has another length than its flags require. -/
  | unfitTimes (length : Nat) (kinds : UInt8)
  /-- An NTFS field has an unexpected length. -/
  | systemTimesLength
  /-- An NTFS field has an unknown attribute. -/
  | systemTimesAttribute
  /-- An NTFS field states an unexpected attribute size. -/
  | systemTimesSize
  /-- A field of 64-bit sizes is shorter than the values that it has to provide. -/
  | largeSizesLength
  /-- The position of an entry exceeds eight bytes. -/
  | positionTooLarge
  /-- An AES-encrypted entry lacks its AES field. -/
  | unknownEncryption
  deriving DecidableEq, Repr

/-- The eight binary digits of a byte. -/
def binaryDigits (b : UInt8) : String :=
  String.ofList ((List.range 8).reverse.map fun i => if b.toNat.testBit i then '1' else '0')

/-- The message of a defect. -/
def Defect.message : Defect → String
  | noEndRecord => "invalid Zip archive: Could not find EOCD"
  | cutEndRecord => "invalid Zip archive: Unexpected end of zip::spec::Zip32CDEBlock"
  | cutComment => "invalid Zip archive: EOCD comment exceeds file boundary"
  | directoryBehindEnd => "invalid Zip archive: Invalid CDFH offset in EOCD"
  | noDirectory => "invalid Zip archive: No CDFH found"
  | severalParts =>
    "unsupported Zip archive: Support for multi-disk files is not implemented"
  | cutDirectory => "invalid Zip archive: Unexpected end of zip::types::ZipCentralEntryBlock"
  | strangeDirectory => "invalid Zip archive: Invalid Central Directory header"
  | cutPart => "invalid Zip archive: Variable-length field extends beyond file boundary"
  | cutFieldHead => "invalid Zip archive: Extra field header truncated"
  | cutField => "invalid Zip archive: Extra field content truncated"
  | cutValue => "i/o error: failed to fill whole buffer"
  | shortReplacement => "invalid Zip archive: Unicode extra field is too small"
  | strayReplacement => "invalid Zip archive: CRC32 checksum failed on Unicode extra field"
  | unreadableReplacement => "invalid Zip archive: Invalid UTF-8"
  | emptyTimes => "invalid Zip archive: Extended timestamp field is empty"
  | unfitTimes length kinds =>
    "i/o error: flags and len don't match in extended timestamp field"
      ++ s!" len={length} flags={binaryDigits kinds}"
  | systemTimesLength => "unsupported Zip archive: NTFS extra field has an unsupported length"
  | systemTimesAttribute =>
    "unsupported Zip archive: NTFS extra field has an unsupported attribute tag"
  | systemTimesSize =>
    "unsupported Zip archive: NTFS extra field has an unsupported attribute size"
  | largeSizesLength => "invalid Zip archive: ZIP64 extra-data field is the wrong length"
  | positionTooLarge => "invalid Zip archive: Archive header is too large"
  | unknownEncryption => "invalid Zip archive: AES encryption without AES extra data field"

/-- Why an entry of an archive cannot be opened. -/
inductive EntryDefect where
  | encrypted
  /-- The local header is truncated. -/
  | cutHead
  /-- The local header has a wrong signature. -/
  | noHead
  /-- The compression method is not supported. -/
  | unknownMethod
  deriving DecidableEq, Repr

/-- The message of a defect. -/
def EntryDefect.message : EntryDefect → String
  | encrypted => "unsupported Zip archive: Password required to decrypt file"
  | cutHead => "invalid Zip archive: Unexpected end of zip::types::ZipLocalEntryBlock"
  | noHead => "invalid Zip archive: Invalid local file header"
  | unknownMethod => "unsupported Zip archive: Compression method not supported"

/-- Why the content of an entry cannot be used. -/
inductive ContentDefect where
  /-- The checksum of the content differs from the one in the directory. -/
  | wrongChecksum
  /-- The compressed data is invalid. -/
  | corrupt
  /-- The compressed data ends early. -/
  | incomplete
  deriving DecidableEq, Repr

/-- The message of a defect. -/
def ContentDefect.message : ContentDefect → String
  | wrongChecksum => "Invalid checksum"
  | corrupt => "corrupt deflate stream"
  | incomplete => "incomplete deflate stream"

end Beatmap.Archive
