import Beatmap.Proofs.Outcome
import Mathlib.Data.List.Nodup

/-!
# The source member of a chart

A chart stores the hash of its content, and `Mapset.chartMember?` returns the first chart member
with that hash. This is the member that the chart was read from exactly if no earlier chart member
has the same hash (`chartMember?_of_ofArchive`). An archive may contain two chart files with the
same content, and then the chart of the second is attributed to the first
(`chartMember?_of_same_bytes`).
-/

namespace Beatmap

namespace Mapset

/-- The content hashes of the chart members, in order. -/
def chartHashes (m : Mapset) : List String := (m.membersWithRole .chart).map (·.contentHash)

/-- The index of the first chart member with the hash of a chart. -/
def sourcePlace (m : Mapset) (c : Chart) : Nat := m.chartHashes.idxOf c.contentHash

/-- `chartMember?` returns the chart member at that index. -/
theorem chartMember?_eq_getElem? (m : Mapset) (c : Chart) :
    m.chartMember? c = (m.membersWithRole .chart)[m.sourcePlace c]? := by
  have hfind : m.chartMember? c
      = (m.membersWithRole .chart).find? (·.contentHash == c.contentHash) := by
    rw [membersWithRole, List.find?_filter, chartMember?]
    congr 1
    funext member
    rw [Bool.eq_iff_iff]
    simp [isSourceOf]
  have hplace : m.sourcePlace c
      = (m.membersWithRole .chart).findIdx (·.contentHash == c.contentHash) := by
    rw [sourcePlace, chartHashes, List.idxOf, List.findIdx_map]
    rfl
  rw [hfind, hplace, List.find?_eq_getElem?_findIdx]

end Mapset

/-- The first index of an element is `i` exactly if it does not occur before `i`. -/
theorem idxOf_eq_iff_not_mem_take {α : Type} [DecidableEq α] {l : List α} {a : α} {i : Nat}
    (h : l[i]? = some a) : l.idxOf a ≤ i ∧ (l.idxOf a = i ↔ a ∉ l.take i) := by
  have hmem : a ∈ l := List.mem_of_getElem? h
  have hnext : a ∈ l.take (i + 1) :=
    List.mem_of_getElem? (by simpa using h : (l.take (i + 1))[i]? = some a)
  have hle : l.idxOf a < i + 1 := (List.mem_take_iff_idxOf_lt hmem).mp hnext
  refine ⟨by omega, ?_⟩
  rw [List.mem_take_iff_idxOf_lt hmem]
  omega

/-- Every element is at its first index exactly if the list has no duplicates. -/
theorem forall_idxOf_eq_iff_nodup {α : Type} [DecidableEq α] (l : List α) :
    (∀ i a, l[i]? = some a → l.idxOf a = i) ↔ l.Nodup := by
  constructor
  · intro h
    rw [List.nodup_iff_getElem?_ne_getElem?]
    intro i j hij hj heq
    have hi := List.getElem?_eq_getElem hj
    have := h j _ hi
    have := h i _ (heq.trans hi)
    omega
  · intro h i a ha
    obtain ⟨hi, rfl⟩ := List.getElem?_eq_some_iff.mp ha
    exact h.idxOf_getElem i hi

namespace Processed

/-- The hashes of the charts are those of the chart members. -/
theorem map_contentHash_charts {filename : String} {archive : ByteArray}
    {entries : List Archive.Entry} {p : Processed} (h : IsMapsetOf filename archive entries p) :
    p.mapset.charts.map (·.contentHash) = p.mapset.chartHashes := by
  rw [h.charts, List.map_map]
  rfl

/-- **The source member of a chart.** In the mapset of a processed archive, the chart at each index
was read from the chart member at that index and has its path and hash. `chartMember?` returns the
first chart member with this hash, which is that member exactly if no earlier chart member has the
same hash. All charts are attributed to their own members, and equivalently each hash belongs to
exactly one chart member, exactly if the hashes of the chart members are distinct. -/
theorem chartMember?_of_ofArchive {filename : String} {archive : ByteArray} {pool : Option Pool}
    {entriesOf : ByteArray → Except Archive.Defect (List Archive.Entry)} {p : Processed}
    (h : ofArchive filename archive pool entriesOf = .ok p) :
    (∀ i c, p.mapset.charts[i]? = some c →
        (∃ source, (p.mapset.membersWithRole .chart)[i]? = some source
          ∧ c.sourceFilename = source.path ∧ c.contentHash = source.contentHash)
        ∧ (∃ first, p.mapset.chartMember? c = some first
          ∧ (p.mapset.membersWithRole .chart)[p.mapset.sourcePlace c]? = some first
          ∧ first.contentHash = c.contentHash)
        ∧ p.mapset.sourcePlace c ≤ i
        ∧ (p.mapset.sourcePlace c = i ↔ c.contentHash ∉ p.mapset.chartHashes.take i))
      ∧ ((∀ i c, p.mapset.charts[i]? = some c → p.mapset.sourcePlace c = i)
        ↔ p.mapset.chartHashes.Nodup)
      ∧ ((∀ c ∈ p.mapset.charts, p.mapset.chartHashes.count c.contentHash = 1)
        ↔ p.mapset.chartHashes.Nodup) := by
  obtain ⟨entries, -, hright⟩ := exists_entries_of_ofArchive h
  have hhashes := map_contentHash_charts hright
  have hplace : ∀ (i : Nat) (c : Chart), p.mapset.charts[i]? = some c
      → p.mapset.chartHashes[i]? = some c.contentHash := by
    intro i c hc
    rw [← hhashes, List.getElem?_map, hc]
    rfl
  refine ⟨?_, ?_, ?_⟩
  · intro i c hc
    have hown := hplace i c hc
    obtain ⟨hle, hiff⟩ := idxOf_eq_iff_not_mem_take hown
    rw [hright.charts, List.getElem?_map, Option.map_eq_some_iff] at hc
    obtain ⟨source, hsource, rfl⟩ := hc
    refine ⟨⟨source, hsource, rfl, rfl⟩, ?_, hle, hiff⟩
    -- The member at the first index of a hash has that hash.
    have hfound := List.getElem?_idxOf (List.mem_of_getElem? hown)
    rw [Mapset.chartHashes, List.getElem?_map, Option.map_eq_some_iff] at hfound
    obtain ⟨first, hfirst, hhash⟩ := hfound
    exact ⟨first, (p.mapset.chartMember?_eq_getElem? _).trans hfirst, hfirst, hhash⟩
  · rw [← forall_idxOf_eq_iff_nodup]
    constructor
    · intro hall i hash hi
      rw [← hhashes, List.getElem?_map, Option.map_eq_some_iff] at hi
      obtain ⟨c, hc, rfl⟩ := hi
      exact hall i c hc
    · intro hall i c hc
      exact hall i _ (hplace i c hc)
  · rw [List.nodup_iff_count_eq_one]
    constructor
    · intro hall hash hmem
      rw [← hhashes] at hmem
      obtain ⟨c, hc, rfl⟩ := List.mem_map.mp hmem
      exact hall c hc
    · intro hall c hc
      exact hall _ (hhashes ▸ List.mem_map_of_mem hc)

/-- Two chart files with the same content. -/
def twins : List Archive.Entry := [.file ["a.osu"] 0 .empty, .file ["b.osu"] 0 .empty]

theorem membersOf_twins :
    membersOf (.ofEntries twins) = [.ofContent "a.osu" .empty, .ofContent "b.osu" .empty] := by
  have hfiles : (Archive.Extraction.ofEntries twins).files
      = [(["a.osu"], .empty), (["b.osu"], .empty)] := by decide +kernel
  rw [membersOf, hfiles]
  rfl

theorem ofEntries_twins :
    ∃ p, ofArchive "twins.osz" .empty (some .inOrder) (fun _ => .ok twins) = .ok p
      ∧ p.mapset.charts = (p.mapset.membersWithRole .chart).map Member.chart
      ∧ p.mapset.members = [.ofContent "a.osu" .empty, .ofContent "b.osu" .empty] := by
  have hchart : ∃ m ∈ membersOf (.ofEntries twins), m.role = .chart :=
    ⟨.ofContent "a.osu" .empty, by rw [membersOf_twins]; exact List.mem_cons_self .., by decide⟩
  obtain ⟨p, hp, hright⟩ :=
    ofEntries_of_chart "twins.osz" .empty (some .inOrder) (by decide) hchart
  refine ⟨p, ?_, hright.charts, hright.members.trans membersOf_twins⟩
  rw [ofArchive_of_ok "twins.osz" (some .inOrder) rfl, hp]

theorem chartMember?_of_ofArchive_twins :
    ∃ p, ofArchive "twins.osz" .empty (some .inOrder) (fun _ => .ok twins) = .ok p
      ∧ ¬∀ i c, p.mapset.charts[i]? = some c → p.mapset.sourcePlace c = i := by
  obtain ⟨p, hp, -, hmembers⟩ := ofEntries_twins
  refine ⟨p, hp, ?_⟩
  rw [(chartMember?_of_ofArchive hp).2.1, Mapset.chartHashes, Mapset.membersWithRole, hmembers]
  exact List.not_nodup_cons_of_mem (List.mem_cons_self ..)

/-- The chart of the second of two chart files with the same content is attributed to the first. -/
theorem chartMember?_of_same_bytes :
    ∃ p, ofArchive "twins.osz" .empty (some .inOrder) (fun _ => .ok twins) = .ok p
      ∧ ∃ c m, p.mapset.charts[1]? = some c ∧ c.sourceFilename = "b.osu"
        ∧ p.mapset.chartMember? c = some m ∧ m.path = "a.osu" := by
  obtain ⟨p, hp, hcharts, hmembers⟩ := ofEntries_twins
  have hsources : p.mapset.membersWithRole .chart
      = [.ofContent "a.osu" .empty, .ofContent "b.osu" .empty] := by
    rw [Mapset.membersWithRole, hmembers]
    rfl
  refine ⟨p, hp, (Member.ofContent "b.osu" .empty).chart, .ofContent "a.osu" .empty, ?_, by decide,
    ?_, by decide⟩
  · rw [hcharts, hsources]
    rfl
  · rw [Mapset.chartMember?, hmembers, List.find?_cons_of_pos]
    exact Bool.and_eq_true_iff.mpr ⟨by decide, beq_self_eq_true _⟩

end Processed

end Beatmap
