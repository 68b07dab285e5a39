import Beatmap.Mapset.Basic
import Beatmap.Store.Chart

/-!
# JSON form of mapsets

The JSON form of a mapset and of its members. The contents of members are stored separately: they
are not encoded, and a decoded member has no content.
-/

namespace Beatmap

open Beatmap.Json
open Beatmap.Json.Value
open Beatmap.Json.FieldReader

/-- Encodes a role as its name. -/
def Role.toJson (r : Role) : Value := text r.name

/-- Decodes a role from its name. -/
def Role.ofJson? (v : Value) : Option Role := v.alternative?.bind Role.ofName?

/-- Encodes a 64-bit natural number. -/
def uint64 (n : UInt64) : Value := int n.toNat

/-- The encoded fields of a member, in order. -/
def Member.fieldNames : List String := ["relative_path", "size_bytes", "content_hash", "role"]

/-- Encodes a member. -/
def Member.toJson (m : Member) : Value :=
  record fieldNames [text m.path, uint64 m.size, text m.contentHash, m.role.toJson]

/-- Decodes a member. -/
def Member.ofJson? : Value → Option Member :=
  record? fieldNames do
    return {
      path := ← nextText
      size := ← next uint64?
      contentHash := ← nextText
      role := ← next Role.ofJson?
      content := .empty }

/-- The encoded fields of a mapset, in order. -/
def Mapset.fieldNames : List String :=
  ["title", "artist", "creator", "source", "tags", "description", "archive_filename",
    "archive_hash", "archive_size", "charts", "members"]

/-- Encodes a mapset. -/
def Mapset.toJson (m : Mapset) : Value :=
  record fieldNames [text m.title, text m.artist, text m.creator, text m.source, text m.tags,
    text m.description, text m.archiveFilename, text m.archiveHash, uint64 m.archiveSize,
    list Chart.toJson m.charts, list Member.toJson m.members]

/-- Decodes a mapset. -/
def Mapset.ofJson? (floats : FloatReader := Value.floating?) : Value → Option Mapset :=
  record? fieldNames do
    return {
      title := ← nextText
      artist := ← nextText
      creator := ← nextText
      source := ← nextText
      tags := ← nextText
      description := ← nextText
      archiveFilename := ← nextText
      archiveHash := ← nextText
      archiveSize := ← next uint64?
      charts := ← next (list? (Chart.ofJson? floats))
      members := ← next (list? Member.ofJson?) }

end Beatmap
