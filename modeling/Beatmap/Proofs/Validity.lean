import Beatmap.Mapset.Problem
import Beatmap.Proofs.Blank
import Mathlib.Data.List.Nodup

/-!
# Valid mapsets

`Mapset.IsValid` specifies validity as a conjunction of independent conditions, without reference to
the list of problems. `problems_eq_nil_iff` shows that a mapset has no problems exactly if it is
valid. The early return for a mapset without charts hides no problem, since such a mapset is
invalid.

The charts are checked in order, each against those before it; the induction hypothesis includes
that the earlier charts are pairwise distinct (`problemsOfCharts_eq_nil_iff`).
-/

namespace Beatmap

open Beatmap.Text

/-- Whether a text contains a character that is not white space. -/
def HasText (text : String) : Prop := ∃ c ∈ text.toList, isBlank c = false

/-- Whether two paths agree up to case and the direction of slashes. -/
def Path.Same (a b : String) : Prop :=
  lowerCase (Path.forwardSlashes a.toList) = lowerCase (Path.forwardSlashes b.toList)

/-- The conditions on a single chart. -/
structure Chart.IsComplete (c : Chart) : Prop where
  version : HasText c.metadata.version
  creator : HasText c.metadata.creator
  objects : c.hitObjects.toList ≠ []

/-- Whether the audio file of a chart, if it names one, is an audio member of the mapset. -/
def Mapset.ProvidesAudioOf (m : Mapset) (c : Chart) : Prop :=
  c.general.audioFilename ≠ "" →
    ∃ member ∈ m.members, member.role = .audio ∧ Path.Same member.path c.general.audioFilename

/-- The conditions on a mapset. -/
structure Mapset.IsValid (m : Mapset) : Prop where
  title : HasText m.title
  artist : HasText m.artist
  creator : HasText m.creator
  someChart : m.charts ≠ []
  /-- The pairs of mode and version are distinct. -/
  distinct : (m.charts.map fun c => (c.general.mode, c.metadata.version)).Nodup
  complete : ∀ c ∈ m.charts, c.IsComplete
  audioOfCharts : ∀ c ∈ m.charts, m.ProvidesAudioOf c
  someAudio : ∃ member ∈ m.members, member.role = .audio

theorem isBlankText_eq_false_iff {text : String} : isBlankText text = false ↔ HasText text := by
  have hnil : isBlankText text = true ↔ ∀ c ∈ text.toList, isBlank c = true := by
    rw [isBlankText, List.isEmpty_iff, trim_eq_nil_iff]
  rw [← Bool.not_eq_true, hnil, HasText]
  simp only [not_forall, Bool.not_eq_true, exists_prop]

@[simp]
theorem reportIf_eq_nil_iff {condition : Bool} {problem : Problem} :
    reportIf condition problem = [] ↔ condition = false := by
  cases condition <;> simp [reportIf]

namespace Mapset

theorem membersWithRole_eq_nil_iff {m : Mapset} {role : Role} :
    m.membersWithRole role = [] ↔ ¬∃ member ∈ m.members, member.role = role := by
  rw [membersWithRole, List.filter_eq_nil_iff]
  simp only [beq_iff_eq, not_exists, not_and]

theorem hasAudio_iff {m : Mapset} {filename : String} :
    m.hasAudio filename = true
      ↔ ∃ member ∈ m.members, member.role = .audio ∧ Path.Same member.path filename := by
  simp only [hasAudio, membersWithRole, List.any_eq_true, List.mem_filter, beq_iff_eq,
    Member.matchesPath, Path.comparable, Path.Same, and_assoc]

/-- A chart has no problems exactly if it is complete and not a duplicate of an earlier one. -/
theorem problemsOfChart_eq_nil_iff {m : Mapset} {earlier : List Chart} {c : Chart} :
    m.problemsOfChart earlier c = []
      ↔ c.identity ∉ earlier.map Chart.identity ∧ c.IsComplete ∧ m.ProvidesAudioOf c := by
  have hcopy : (earlier.any (·.identity == c.identity)) = false
      ↔ c.identity ∉ earlier.map Chart.identity := by
    rw [← Bool.not_eq_true, List.any_eq_true, List.mem_map]
    simp only [beq_iff_eq]
  have hobjects : c.hitObjects.isEmpty = false ↔ c.hitObjects.toList ≠ [] := by
    rw [← Bool.not_eq_true, Array.isEmpty_iff, ne_eq, Array.toList_eq_nil_iff]
  have haudio : (c.general.audioFilename != "" && !m.hasAudio c.general.audioFilename) = false
      ↔ m.ProvidesAudioOf c := by
    rw [ProvidesAudioOf, ← hasAudio_iff]
    by_cases hname : c.general.audioFilename = "" <;> simp [hname]
  simp only [problemsOfChart, List.append_eq_nil_iff, reportIf_eq_nil_iff, hcopy, hobjects, haudio,
    isBlankText_eq_false_iff]
  constructor
  · intro h
    obtain ⟨⟨⟨⟨hnew, hversion⟩, hcreator⟩, hsome⟩, hfound⟩ := h
    exact ⟨hnew, ⟨hversion, hcreator, hsome⟩, hfound⟩
  · intro h
    obtain ⟨hnew, ⟨hversion, hcreator, hsome⟩, hfound⟩ := h
    exact ⟨⟨⟨⟨hnew, hversion⟩, hcreator⟩, hsome⟩, hfound⟩

/-- A list of charts has no problems exactly if each is complete, and they are duplicates neither of
the earlier charts nor of each other. -/
theorem problemsOfCharts_eq_nil_iff {m : Mapset} {earlier charts : List Chart} :
    m.problemsOfCharts earlier charts = []
      ↔ (∀ c ∈ charts, c.identity ∉ earlier.map Chart.identity)
        ∧ (charts.map Chart.identity).Nodup
        ∧ ∀ c ∈ charts, c.IsComplete ∧ m.ProvidesAudioOf c := by
  induction charts generalizing earlier with
  | nil => simp [problemsOfCharts]
  | cons c rest ih =>
    rw [problemsOfCharts, List.append_eq_nil_iff, problemsOfChart_eq_nil_iff, ih, List.map_cons,
      List.map_cons, List.nodup_cons, List.forall_mem_cons, List.forall_mem_cons]
    -- The first chart becomes one of the earlier charts of the others.
    have hsplit : (∀ d ∈ rest, d.identity ∉ c.identity :: earlier.map Chart.identity)
        ↔ c.identity ∉ rest.map Chart.identity
          ∧ ∀ d ∈ rest, d.identity ∉ earlier.map Chart.identity := by
      simp only [List.mem_cons, not_or, forall_and, List.mem_map, not_exists, not_and]
    rw [hsplit]
    constructor
    · intro h
      obtain ⟨⟨hnew, hc⟩, ⟨hfirst, hothers⟩, hdistinct, hrest⟩ := h
      exact ⟨⟨hnew, hothers⟩, ⟨hfirst, hdistinct⟩, hc, hrest⟩
    · intro h
      obtain ⟨⟨hnew, hothers⟩, ⟨hfirst, hdistinct⟩, hc, hrest⟩ := h
      exact ⟨⟨hnew, hc⟩, ⟨hfirst, hothers⟩, hdistinct, hrest⟩

/-- A mapset has no problems exactly if it is valid. -/
theorem problems_eq_nil_iff (m : Mapset) : m.problems = [] ↔ m.IsValid := by
  have hbasic : m.problems = []
      ↔ (HasText m.title ∧ HasText m.artist ∧ HasText m.creator) ∧ m.charts ≠ []
        ∧ m.problemsOfCharts [] m.charts = []
        ∧ ∃ member ∈ m.members, member.role = .audio := by
    cases hc : m.charts with
    | nil => simp [problems, hc]
    | cons first rest =>
      have haudio : (m.membersWithRole .audio).isEmpty = false
          ↔ ∃ member ∈ m.members, member.role = .audio := by
        rw [← Bool.not_eq_true, List.isEmpty_iff, membersWithRole_eq_nil_iff, not_not]
      simp only [problems, hc, List.isEmpty_cons, Bool.false_eq_true, if_false,
        List.append_eq_nil_iff, reportIf_eq_nil_iff, isBlankText_eq_false_iff, haudio, and_assoc,
        ne_eq, reduceCtorEq, not_false_eq_true, true_and]
  rw [hbasic, problemsOfCharts_eq_nil_iff]
  constructor
  · intro h
    obtain ⟨⟨htitle, hartist, hcreator⟩, hcharts, ⟨-, hdistinct, heach⟩, haudio⟩ := h
    exact ⟨htitle, hartist, hcreator, hcharts, hdistinct, fun c hc => (heach c hc).1,
      fun c hc => (heach c hc).2, haudio⟩
  · intro h
    refine ⟨⟨h.title, h.artist, h.creator⟩, h.someChart, ⟨?_, h.distinct, ?_⟩, h.someAudio⟩
    · intro c _
      exact List.not_mem_nil
    · intro c hc
      exact ⟨h.complete c hc, h.audioOfCharts c hc⟩

end Mapset

end Beatmap
