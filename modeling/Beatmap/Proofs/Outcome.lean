import Beatmap.Mapset.Processing
import Beatmap.Proofs.Extraction

/-!
# Outcomes of processing an archive

`ofArchive_exact` determines the result of processing for every archive. It fails in three cases:
the archive cannot be opened, an entry is oversized, so that extraction panics, or no member is a
chart. The last case is only reported for archives without oversized entries. In all other cases the
result is a mapset whose charts are those of the chart members, one for each and in their order
(`IsMapsetOf`). The result does not depend on the pool (`readCharts_eq_map`).
-/

namespace Beatmap

/-- The decoded text of a member. -/
def Member.text (m : Member) : String := String.ofList (textOfBytes m.content)

/-- The chart of a member, with the path and the content hash of the member. -/
def Member.chart (m : Member) : Chart :=
  { (Chart.parse m.text).1 with sourceFilename := m.path, contentHash := m.contentHash }

/-- The diagnostics of the chart of a member. -/
def Member.chartMessages (m : Member) : List String :=
  (Chart.parse m.text).2.map fun d => m.path ++ ": " ++ d.display

/-- The metadata of a member agrees with its path and its content. -/
structure Member.IsSound (m : Member) : Prop where
  size : m.size = m.content.size.toUInt64
  contentHash : m.contentHash = fingerprint m.content
  role : m.role = Role.ofPath m.path.toList

theorem Member.isSound_ofContent (path : String) (content : ByteArray) :
    (Member.ofContent path content).IsSound where
  size := rfl
  contentHash := rfl
  role := by simp [Member.ofContent]

theorem Chart.ofMember_eq (m : Member) :
    Chart.ofMember m = (m.chart, (Chart.parse m.text).2.map (.line m.path)) := by
  simp [Chart.ofMember, Member.chart, Member.text, Chart.parse]

namespace Processed

/-- The charts do not depend on the pool. -/
theorem readCharts_eq_map (pool : Option Pool) (members : List Member) :
    readCharts pool members = (members.filter (·.role == .chart)).map Chart.ofMember := by
  cases pool with
  | none => rfl
  | some pool => exact pool.collect_eq_map Chart.ofMember _

theorem foldl_addChart (done : List Chart × List Remark) (read : List (Chart × List Remark)) :
    read.foldl addChart done
      = (done.1 ++ read.map Prod.fst, done.2 ++ read.flatMap Prod.snd) := by
  induction read generalizing done with
  | nil => simp
  | cons first rest ih =>
    rw [List.foldl_cons, ih]
    simp [addChart]

/-- The charts and the diagnostics are in the order of the members. -/
theorem takeApart_eq (remarks : List Remark) (read : List (Chart × List Remark)) :
    takeApart remarks read = (read.map Prod.fst, remarks ++ read.flatMap Prod.snd) :=
  foldl_addChart ([], remarks) read

/-- The result of processing is the mapset for the given entries. -/
structure IsMapsetOf (filename : String) (archive : ByteArray) (entries : List Archive.Entry)
    (p : Processed) : Prop where
  archiveFilename : p.mapset.archiveFilename = filename
  archiveHash : p.mapset.archiveHash = fingerprint archive
  archiveSize : p.mapset.archiveSize = archive.size.toUInt64
  accounted : ∀ i entry, entries[i]? = some entry
    → ∃ result, (Archive.Extraction.ofEntries entries).results[i]? = some result
      ∧ Archive.Accounts i entry result
  members : p.mapset.members = membersOf (.ofEntries entries)
  sound : ∀ m ∈ p.mapset.members, m.IsSound
  /-- There is one chart for each chart member, in order. -/
  charts : p.mapset.charts = (p.mapset.membersWithRole .chart).map Member.chart
  /-- The diagnostics are the complaints about entries, followed by the diagnostics of each chart.
  -/
  remarks : p.remarks.map Remark.message
    = (Archive.Extraction.ofEntries entries).complaints.map Archive.Complaint.message
      ++ (p.mapset.membersWithRole .chart).flatMap Member.chartMessages
  problems : p.problems = p.mapset.problems

/-- Filling metadata from the first chart changes only text fields. -/
theorem fillFromFirstChart_keeps (m : Mapset) :
    m.fillFromFirstChart.archiveFilename = m.archiveFilename
      ∧ m.fillFromFirstChart.archiveHash = m.archiveHash
      ∧ m.fillFromFirstChart.archiveSize = m.archiveSize
      ∧ m.fillFromFirstChart.charts = m.charts
      ∧ m.fillFromFirstChart.members = m.members := by
  unfold Mapset.fillFromFirstChart
  split
  next => exact ⟨rfl, rfl, rfl, rfl, rfl⟩
  next => exact ⟨rfl, rfl, rfl, rfl, rfl⟩

/-- The messages of the diagnostics of charts. -/
theorem map_message_flatMap (members : List Member) :
    ((members.map Chart.ofMember).flatMap Prod.snd).map Remark.message
      = members.flatMap Member.chartMessages := by
  rw [List.flatMap_map, List.map_flatMap]
  congr 1
  funext m
  rw [Chart.ofMember_eq]
  simp only [List.map_map, Member.chartMessages]
  rfl

theorem membersOf_sound (x : Archive.Extraction) : ∀ m ∈ membersOf x, m.IsSound := by
  intro m hm
  obtain ⟨file, _, rfl⟩ := List.mem_map.mp hm
  exact Member.isSound_ofContent file.1.text file.2

/-! ## Results for entries -/

variable (filename : String) (archive : ByteArray) (pool : Option Pool)
    {entries : List Archive.Entry}

/-- With an oversized entry, processing panics. -/
theorem ofEntries_of_isOversized (h : ∃ entry ∈ entries, entry.isOversized = true) :
    ofEntries filename archive pool entries = .error (.panicked .capacityOverflow) := by
  simp only [ofEntries, ofExtraction,
    Archive.Extraction.panic?_ofEntries_of_isOversized Archive.emptyWorkplace h]

/-- Without a chart member, processing fails. -/
theorem ofEntries_of_no_chart (hsize : ∀ entry ∈ entries, entry.isOversized = false)
    (h : ∀ m ∈ membersOf (.ofEntries entries), m.role ≠ .chart) :
    ofEntries filename archive pool entries = .error (.failed .noCharts) := by
  have hnone : (membersOf (.ofEntries entries)).filter (·.role == .chart) = [] := by
    rw [List.filter_eq_nil_iff]
    intro m hm
    simpa using h m hm
  simp [ofEntries, ofExtraction, Archive.Extraction.panic?_ofEntries_eq_none _ hsize,
    readCharts_eq_map, takeApart_eq, hnone]

/-- With a chart member, processing succeeds. -/
theorem ofEntries_of_chart (hsize : ∀ entry ∈ entries, entry.isOversized = false)
    (h : ∃ m ∈ membersOf (.ofEntries entries), m.role = .chart) :
    ∃ p, ofEntries filename archive pool entries = .ok p
      ∧ IsMapsetOf filename archive entries p := by
  obtain ⟨m, hm, hrole⟩ := h
  have hsome : (membersOf (.ofEntries entries)).filter (·.role == .chart) ≠ [] := by
    intro hnil
    rw [List.filter_eq_nil_iff] at hnil
    exact hnil m hm (by simp [hrole])
  have hpanic := Archive.Extraction.panic?_ofEntries_eq_none Archive.emptyWorkplace hsize
  simp only [ofEntries, ofExtraction, hpanic, readCharts_eq_map, takeApart_eq]
  rw [if_neg (by simpa using hsome)]
  refine ⟨_, rfl, ?_⟩
  -- Filling in metadata preserves all fields that the statement mentions.
  obtain ⟨hname, hhash, hlength, hcharts, hmembers⟩ := fillFromFirstChart_keeps {
    archiveFilename := filename
    archiveHash := fingerprint archive
    archiveSize := archive.size.toUInt64
    charts := (((membersOf (.ofEntries entries)).filter (·.role == .chart)).map
      Chart.ofMember).map Prod.fst
    members := membersOf (.ofEntries entries) }
  refine ⟨hname, hhash, hlength,
    Archive.Extraction.accounts_results Archive.emptyWorkplace hsize, hmembers, ?_, ?_, ?_, rfl⟩
  · rw [hmembers]
    exact membersOf_sound _
  · rw [hcharts, Mapset.membersWithRole, hmembers, List.map_map]
    apply List.map_congr_left
    intro m _
    simp [Chart.ofMember_eq]
  · rw [Mapset.membersWithRole, hmembers, List.map_append, map_message_flatMap, List.map_map]
    rfl

/-- The three possible results for a list of entries. -/
theorem ofEntries_cases (entries : List Archive.Entry) :
    ((∃ entry ∈ entries, entry.isOversized = true)
        ∧ ofEntries filename archive pool entries = .error (.panicked .capacityOverflow))
      ∨ (∀ entry ∈ entries, entry.isOversized = false)
        ∧ ((∀ m ∈ membersOf (.ofEntries entries), m.role ≠ .chart)
            ∧ ofEntries filename archive pool entries = .error (.failed .noCharts)
          ∨ (∃ m ∈ membersOf (.ofEntries entries), m.role = .chart)
            ∧ ∃ p, ofEntries filename archive pool entries = .ok p
              ∧ IsMapsetOf filename archive entries p) := by
  by_cases hover : ∃ entry ∈ entries, entry.isOversized = true
  · exact Or.inl ⟨hover, ofEntries_of_isOversized filename archive pool hover⟩
  · have hsize : ∀ entry ∈ entries, entry.isOversized = false := by
      intro entry hm
      by_contra he
      exact hover ⟨entry, hm, by simpa using he⟩
    refine Or.inr ⟨hsize, ?_⟩
    by_cases hchart : ∃ m ∈ membersOf (.ofEntries entries), m.role = .chart
    · exact Or.inr ⟨hchart, ofEntries_of_chart filename archive pool hsize hchart⟩
    · have hnone : ∀ m ∈ membersOf (.ofEntries entries), m.role ≠ .chart := by
        intro m hm hrole
        exact hchart ⟨m, hm, hrole⟩
      exact Or.inl ⟨hnone, ofEntries_of_no_chart filename archive pool hsize hnone⟩

theorem not_forall_isOversized (h : ∃ entry ∈ entries, entry.isOversized = true) :
    ¬∀ entry ∈ entries, entry.isOversized = false := by
  intro hsize
  obtain ⟨entry, hm, hover⟩ := h
  exact Bool.false_ne_true ((hsize entry hm).symm.trans hover)

/-! ## Results for archives -/

variable {entriesOf : ByteArray → Except Archive.Defect (List Archive.Entry)} {archive}

theorem openWorkplace_bareTree :
    Archive.openWorkplace Archive.bareTree = .ok Archive.emptyWorkplace := rfl

theorem ofArchive_of_error {defect : Archive.Defect} (h : entriesOf archive = .error defect) :
    ofArchive filename archive pool entriesOf = .error (.failed (.notAnArchive defect)) := by
  rw [ofArchive, ofArchiveIn, openWorkplace_bareTree]
  simp only [h]

theorem ofArchive_of_ok (h : entriesOf archive = .ok entries) :
    ofArchive filename archive pool entriesOf = ofEntries filename archive pool entries := by
  rw [ofArchive, ofArchiveIn, openWorkplace_bareTree]
  simp only [h, ofEntries]

/-- The mapset of an archive is that of its entries. -/
theorem exists_entries_of_ofArchive {filename : String} {pool : Option Pool} {p : Processed}
    (h : ofArchive filename archive pool entriesOf = .ok p) :
    ∃ entries, entriesOf archive = .ok entries ∧ IsMapsetOf filename archive entries p := by
  cases hopen : entriesOf archive with
  | error defect => cases (ofArchive_of_error filename pool hopen).symm.trans h
  | ok entries =>
    rw [ofArchive_of_ok filename pool hopen] at h
    rcases ofEntries_cases filename archive pool entries with
      ⟨-, hpanic⟩ | ⟨-, ⟨-, hnone⟩ | ⟨-, q, hq, hright⟩⟩
    · cases hpanic.symm.trans h
    · cases hnone.symm.trans h
    · cases hq.symm.trans h
      exact ⟨entries, rfl, hright⟩

section Conditions

variable {filename pool}

theorem ofArchive_eq_notAnArchive_iff {defect : Archive.Defect} :
    ofArchive filename archive pool entriesOf = .error (.failed (.notAnArchive defect))
      ↔ entriesOf archive = .error defect := by
  cases hopen : entriesOf archive with
  | error other => simp [ofArchive_of_error filename pool hopen]
  | ok entries =>
    rw [ofArchive_of_ok filename pool hopen]
    refine iff_of_false ?_ (by simp)
    rcases ofEntries_cases filename archive pool entries with
      ⟨-, hpanic⟩ | ⟨-, ⟨-, hnone⟩ | ⟨-, q, hq, -⟩⟩
    · simp [hpanic]
    · simp [hnone]
    · simp [hq]

theorem ofExtraction_eq_panicked_iff {x : Archive.Extraction} {panic : Archive.Panic} :
    ofExtraction filename archive pool x = .error (.panicked panic) ↔ x.panic? = some panic := by
  simp only [ofExtraction]
  cases hx : x.panic? with
  | some other => simp
  | none =>
    refine iff_of_false ?_ (by simp)
    dsimp only
    split <;> simp

/-- Processing in a tree panics exactly if the working directory can be created and the archive has
an oversized entry. -/
theorem ofArchiveIn_eq_panicked_iff {t : Files.Tree} {panic : Archive.Panic} :
    (ofArchiveIn t filename archive pool entriesOf).2 = .error (.panicked panic)
      ↔ (∃ work, Archive.openWorkplace t = .ok work) ∧ ∃ entries, entriesOf archive = .ok entries
        ∧ ∃ entry ∈ entries, entry.isOversized = true := by
  cases hwork : Archive.openWorkplace t with
  | error refusal => simp [ofArchiveIn, hwork]
  | ok work =>
    cases hopen : entriesOf archive with
    | error defect => simp [ofArchiveIn, hwork, hopen]
    | ok entries =>
      cases panic
      simp only [ofArchiveIn, hwork, hopen, ofExtraction_eq_panicked_iff,
        Archive.Extraction.panic?_ofEntries]
      simp

theorem ofArchive_eq_panicked_iff {panic : Archive.Panic} :
    ofArchive filename archive pool entriesOf = .error (.panicked panic)
      ↔ ∃ entries, entriesOf archive = .ok entries
        ∧ ∃ entry ∈ entries, entry.isOversized = true := by
  rw [ofArchive, ofArchiveIn_eq_panicked_iff, openWorkplace_bareTree]
  exact and_iff_right ⟨_, rfl⟩

theorem ofArchive_eq_noCharts_iff :
    ofArchive filename archive pool entriesOf = .error (.failed .noCharts)
      ↔ ∃ entries, entriesOf archive = .ok entries
        ∧ (∀ entry ∈ entries, entry.isOversized = false)
        ∧ ∀ m ∈ membersOf (.ofEntries entries), m.role ≠ .chart := by
  cases hopen : entriesOf archive with
  | error defect => simp [ofArchive_of_error filename pool hopen]
  | ok entries =>
    rw [ofArchive_of_ok filename pool hopen]
    simp only [Except.ok.injEq, exists_eq_left']
    rcases ofEntries_cases filename archive pool entries with
      ⟨hover, hpanic⟩ | ⟨hsize, ⟨hnone, hresult⟩ | ⟨hchart, q, hq, -⟩⟩
    · exact iff_of_false (by simp [hpanic]) fun h => not_forall_isOversized hover h.1
    · exact iff_of_true hresult ⟨hsize, hnone⟩
    · obtain ⟨m, hm, hrole⟩ := hchart
      exact iff_of_false (by simp [hq]) fun h => h.2 m hm hrole

theorem exists_ofArchive_iff :
    (∃ p, ofArchive filename archive pool entriesOf = .ok p)
      ↔ ∃ entries, entriesOf archive = .ok entries
        ∧ (∀ entry ∈ entries, entry.isOversized = false)
        ∧ ∃ m ∈ membersOf (.ofEntries entries), m.role = .chart := by
  cases hopen : entriesOf archive with
  | error defect => simp [ofArchive_of_error filename pool hopen]
  | ok entries =>
    rw [ofArchive_of_ok filename pool hopen]
    simp only [Except.ok.injEq, exists_eq_left']
    rcases ofEntries_cases filename archive pool entries with
      ⟨hover, hpanic⟩ | ⟨hsize, ⟨hnone, hresult⟩ | ⟨hchart, q, hq, -⟩⟩
    · exact iff_of_false (by simp [hpanic]) fun h => not_forall_isOversized hover h.1
    · refine iff_of_false (by simp [hresult]) ?_
      intro h
      obtain ⟨-, m, hm, hrole⟩ := h
      exact hnone m hm hrole
    · exact iff_of_true ⟨q, hq⟩ ⟨hsize, hchart⟩

end Conditions

/-- The result and the resulting tree do not depend on the pool. -/
theorem ofArchiveIn_pool (t : Files.Tree) (other : Option Pool) :
    ofArchiveIn t filename archive other entriesOf
      = ofArchiveIn t filename archive pool entriesOf := by
  simp only [ofArchiveIn, ofExtraction, readCharts_eq_map]

theorem ofFile_pool (t : Files.Tree) (place : Files.Route) (path : String) (other : Option Pool) :
    ofFile t place path other entriesOf = ofFile t place path pool entriesOf := by
  simp only [ofFile, ofArchiveIn_pool _ pool t other]

/-- **Outcomes of processing.** An archive that cannot be opened is rejected with the defect. If an
entry declares more bytes than one allocation may have, processing panics, so that neither a mapset
nor a failure is returned. Any other archive is rejected if none of its members is a chart, and
yields its mapset otherwise. The result does not depend on the pool. -/
theorem ofArchive_exact (filename : String) (archive : ByteArray) (pool : Option Pool)
    (entriesOf : ByteArray → Except Archive.Defect (List Archive.Entry)) :
    (∀ defect, ofArchive filename archive pool entriesOf = .error (.failed (.notAnArchive defect))
        ↔ entriesOf archive = .error defect)
      ∧ (ofArchive filename archive pool entriesOf = .error (.panicked .capacityOverflow)
        ↔ ∃ entries, entriesOf archive = .ok entries
          ∧ ∃ entry ∈ entries, entry.isOversized = true)
      ∧ (ofArchive filename archive pool entriesOf = .error (.failed .noCharts)
        ↔ ∃ entries, entriesOf archive = .ok entries
          ∧ (∀ entry ∈ entries, entry.isOversized = false)
          ∧ ∀ m ∈ membersOf (.ofEntries entries), m.role ≠ .chart)
      ∧ ((∃ p, ofArchive filename archive pool entriesOf = .ok p)
        ↔ ∃ entries, entriesOf archive = .ok entries
          ∧ (∀ entry ∈ entries, entry.isOversized = false)
          ∧ ∃ m ∈ membersOf (.ofEntries entries), m.role = .chart)
      ∧ (∀ p, ofArchive filename archive pool entriesOf = .ok p
        → ∃ entries, entriesOf archive = .ok entries ∧ IsMapsetOf filename archive entries p)
      ∧ ∀ other, ofArchive filename archive other entriesOf
        = ofArchive filename archive pool entriesOf := by
  have hpool : ∀ other, ofArchive filename archive other entriesOf
      = ofArchive filename archive pool entriesOf := fun other =>
    congrArg Prod.snd (ofArchiveIn_pool filename pool Archive.bareTree other)
  exact ⟨fun _ => ofArchive_eq_notAnArchive_iff, ofArchive_eq_panicked_iff,
    ofArchive_eq_noCharts_iff, exists_ofArchive_iff, fun _ => exists_entries_of_ofArchive, hpool⟩

/-- A single chart file with declared size `2 ^ 64 - 1`. -/
def oversizedChart : List Archive.Entry := [.file ["a.osu"] 0xFFFFFFFFFFFFFFFF .empty]

/-- An archive that can be opened and whose processing returns neither a failure nor a mapset. -/
theorem no_result_of_oversizedChart :
    (∀ failure, ofArchive "a.osz" .empty (some .inOrder) (fun _ => .ok oversizedChart)
        ≠ .error (.failed failure))
      ∧ ∀ p, ofArchive "a.osz" .empty (some .inOrder) (fun _ => .ok oversizedChart) ≠ .ok p := by
  have hpanic : ofArchive "a.osz" .empty (some .inOrder) (fun _ => .ok oversizedChart)
      = .error (.panicked .capacityOverflow) := by
    rw [ofArchive_of_ok "a.osz" (some .inOrder) rfl]
    exact ofEntries_of_isOversized _ _ _ ⟨_, List.mem_cons_self .., by decide⟩
  simp [hpanic]

end Processed

end Beatmap
