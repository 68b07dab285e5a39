import Beatmap.Chart.Basic
import Beatmap.Mapset.Member

/-!
# Mapsets

A mapset consists of the charts of one song, the files of the archive they come from, and the
metadata shared by the charts.
-/

namespace Beatmap

/-- The charts and files of one archive. -/
structure Mapset where
  title : String := ""
  artist : String := ""
  creator : String := ""
  source : String := ""
  tags : String := ""
  description : String := ""
  archiveFilename : String := ""
  archiveHash : String := ""
  /-- The number of bytes of the archive. -/
  archiveSize : UInt64 := 0
  /-- The charts, in the order of their members. -/
  charts : List Chart := []
  /-- The members, in the order of the archive. -/
  members : List Member := []
  deriving DecidableEq

namespace Mapset

/-- Fills empty metadata from the first chart. -/
def fillFromFirstChart (m : Mapset) : Mapset :=
  match m.charts with
  | [] => m
  | first :: _ =>
    { m with
      title := Metadata.nonEmptyOr m.title first.metadata.displayTitle
      artist := Metadata.nonEmptyOr m.artist first.metadata.displayArtist
      creator := Metadata.nonEmptyOr m.creator first.metadata.creator
      source := Metadata.nonEmptyOr m.source first.metadata.source
      tags := Metadata.nonEmptyOr m.tags first.metadata.tags }

/-- The storage key of the archive. -/
def archiveStorageKey (m : Mapset) : String :=
  String.ofList (storageKey "osz".toList m.archiveHash.toList (some "osz".toList))

/-- The members with a given role. -/
def membersWithRole (m : Mapset) (role : Role) : List Member := m.members.filter (·.role == role)

/-- The first member that matches a path. -/
def findMember? (m : Mapset) (path : String) : Option Member := m.members.find? (·.matchesPath path)

/-- Whether a member is a chart file with the content hash of a chart. -/
def isSourceOf (c : Chart) (member : Member) : Bool :=
  member.role == .chart && member.contentHash == c.contentHash

/-- The first member with the content hash of a chart. -/
def chartMember? (m : Mapset) (c : Chart) : Option Member := m.members.find? (isSourceOf c)

theorem fillFromFirstChart_fillFromFirstChart (m : Mapset) :
    m.fillFromFirstChart.fillFromFirstChart = m.fillFromFirstChart := by
  have h : ∀ a b : String, Metadata.nonEmptyOr (Metadata.nonEmptyOr a b) b
      = Metadata.nonEmptyOr a b := by
    intro a b
    unfold Metadata.nonEmptyOr
    split <;> simp_all
  unfold fillFromFirstChart
  cases hc : m.charts with
  | nil => simp [hc]
  | cons first rest => simp [h]

end Mapset

end Beatmap
