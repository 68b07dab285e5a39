import Beatmap.Hash.Blake3
import Beatmap.Mapset.Role
import Beatmap.Mapset.StorageKey

/-!
# Members

A member is one file of an archive, with the metadata derived from its path and content by
`Member.ofContent`.
-/

namespace Beatmap

/-- The hash that identifies a content. The theory uses only that it consists of 64 hexadecimal
digits (`length_fingerprint`, `mem_fingerprint`). -/
def fingerprint (content : ByteArray) : String := Hash.Blake3.hexHash content

/-- One file of an archive. -/
structure Member where
  /-- The path inside the archive, with `/` as separator. -/
  path : String
  /-- The number of bytes. -/
  size : UInt64
  contentHash : String
  role : Role
  /-- The content, which is stored separately from the record. -/
  content : ByteArray
  deriving DecidableEq

namespace Member

/-- The member of a path and a content. -/
def ofContent (path : String) (content : ByteArray) : Member :=
  let path := Path.forwardSlashes path.toList
  { path := String.ofList path
    size := content.size.toUInt64
    contentHash := fingerprint content
    role := Role.ofPath path
    content := content }

/-- Whether a path matches the member. -/
def matchesPath (m : Member) (path : String) : Bool :=
  Path.comparable m.path.toList == Path.comparable path.toList

/-- The storage key of the content. -/
def storageKey (m : Member) : String :=
  String.ofList (Beatmap.storageKey m.role.name.toList m.contentHash.toList
    (Path.lowerExtension? m.path.toList))

end Member

end Beatmap
