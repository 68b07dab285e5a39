import Beatmap.Proofs.Fields
import Beatmap.Proofs.Multiplicity
import Beatmap.Proofs.Sources

/-!
# Names of mapsets

A mapset takes its title, artist, creator, source and tags from its first chart. Three tests for
emptiness are involved: the romanised form is preferred unless it is empty, only empty fields are
filled, and a name is reported missing if it is blank. They agree because the texts of a parsed
chart are trimmed (`Chart.isTrimmed_ofLines`), and a trimmed text is blank only if it is empty
(`IsTrimmed.isBlankText_iff`).

A title or artist is therefore reported missing exactly if both of its forms are empty in the first
chart, and the creator exactly if it is empty there (`ofArchive_names`).
-/

namespace Beatmap

open Beatmap.Text

/-! ## Texts of a chart -/

/-- Whether a text is unchanged by `trim`. -/
def IsTrimmed (text : String) : Prop := trim text.toList = text.toList

theorem IsTrimmed.isBlankText_iff {text : String} (h : IsTrimmed text) :
    isBlankText text = true ↔ text = "" := by
  rw [isBlankText, h, List.isEmpty_iff, String.toList_eq_nil_iff]

theorem IsTrimmed.eq_empty_or_hasText {text : String} (h : IsTrimmed text) :
    text = "" ∨ HasText text := by
  rw [← h.isBlankText_iff, ← isBlankText_eq_false_iff]
  exact Bool.eq_false_or_eq_true _

theorem trim_of_valueFor {key : String} {line value : List Char}
    (h : valueFor? key line = some value) :
    trim value = value := by
  unfold valueFor? at h
  split at h
  next before after _ =>
    split at h
    next =>
      rw [← Option.some.inj h]
      exact trim_trim after
    next => cases h
  next => cases h

theorem trim_of_mem_valuesOf {area : Section} {lines : List (List Char)} {key : String}
    {value : List Char} (h : value ∈ valuesOf area lines key) : trim value = value := by
  obtain ⟨raw, -, hvalue⟩ := List.mem_filterMap.mp h
  exact trim_of_valueFor hvalue

/-- The last of some trimmed texts, or a trimmed default, is trimmed. -/
theorem isTrimmed_lastOf {values : List (List Char)} {default : String}
    (h : ∀ value ∈ values, trim value = value) (hdefault : IsTrimmed default) :
    IsTrimmed (lastOf readText values default) := by
  rw [lastOf, List.getLastD_eq_getLast?]
  cases hlast : (values.filterMap readText).getLast? with
  | none => exact hdefault
  | some text =>
    obtain ⟨value, hvalue, htext⟩ := List.mem_filterMap.mp (List.mem_of_getLast? hlast)
    rw [← Option.some.inj htext, Option.getD_some, IsTrimmed, String.toList_ofList]
    exact h value hvalue

/-- The text fields of the section. -/
def General.texts (g : General) : List String :=
  [g.audioFilename, g.audioHash, g.sampleSet, g.overlayPosition, g.skinPreference]

/-- The text fields of the section. -/
def Metadata.texts (m : Metadata) : List String :=
  [m.title, m.titleUnicode, m.artist, m.artistUnicode, m.creator, m.version, m.source, m.tags]

section

variable {values : String → List (List Char)} (h : ∀ key, ∀ value ∈ values key, trim value = value)

include h

theorem General.isTrimmed_ofLast : ∀ text ∈ (ofLast values).texts, IsTrimmed text := by
  simp only [texts, ofLast, List.forall_mem_cons, List.not_mem_nil, false_implies,
    implies_true, and_true]
  exact ⟨isTrimmed_lastOf (h _) rfl, isTrimmed_lastOf (h _) rfl, isTrimmed_lastOf (h _) rfl,
    isTrimmed_lastOf (h _) rfl, isTrimmed_lastOf (h _) rfl⟩

theorem Metadata.isTrimmed_ofLast : ∀ text ∈ (ofLast values).texts, IsTrimmed text := by
  simp only [texts, ofLast, List.forall_mem_cons, List.not_mem_nil, false_implies,
    implies_true, and_true]
  have hfield : ∀ key, IsTrimmed (lastOf readText (values key) "") :=
    fun key => isTrimmed_lastOf (h key) rfl
  exact ⟨hfield _, hfield _, hfield _, hfield _, hfield _, hfield _, hfield _, hfield _⟩

end

/-- The text fields of a parsed chart are trimmed. -/
theorem Chart.isTrimmed_ofLines (lines : List (List Char)) :
    let chart := (ofLines lines).1
    ∀ text ∈ chart.general.texts ++ chart.metadata.texts, IsTrimmed text := by
  intro chart text htext
  have hgeneral : chart.general = General.ofLast (valuesOf .general lines) :=
    General.eq_ofLast fun s hs => SettingsPart.general.get_ofLines hs lines
  have hmetadata : chart.metadata = Metadata.ofLast (valuesOf .metadata lines) :=
    Metadata.eq_ofLast fun s hs => SettingsPart.metadata.get_ofLines hs lines
  rw [hgeneral, hmetadata] at htext
  rcases List.mem_append.mp htext with hmem | hmem
  · exact General.isTrimmed_ofLast (fun _ _ => trim_of_mem_valuesOf) text hmem
  · exact Metadata.isTrimmed_ofLast (fun _ _ => trim_of_mem_valuesOf) text hmem

theorem Chart.isTrimmed_parse (text : String) :
    ∀ field ∈ (parse text).1.general.texts ++ (parse text).1.metadata.texts, IsTrimmed field :=
  isTrimmed_ofLines (linesOf text.toList)

/-! ## Missing names -/

/-- Whether the problem is a missing title, artist or creator. -/
def Problem.isOfNames : Problem → Bool
  | missingTitle | missingArtist | missingCreator => true
  | _ => false

/-- Problems of missing names have distinct messages. -/
theorem Problem.eq_of_message_eq {problem other : Problem} (h : problem.isOfNames = true)
    (hmessage : other.message = problem.message) : other = problem := by
  unfold message at hmessage
  rw [← String.toList_inj] at hmessage
  cases problem with
  | missingTitle =>
    cases other with
    | missingTitle => rfl
    | _ => simp [toString] at hmessage
  | missingArtist =>
    cases other with
    | missingArtist => rfl
    | _ => simp [toString] at hmessage
  | missingCreator =>
    cases other with
    | missingCreator => rfl
    | _ => simp [toString] at hmessage
  | _ => cases h

namespace Mapset

theorem filter_isOfNames_problemsOfCharts (m : Mapset) (earlier charts : List Chart) :
    (m.problemsOfCharts earlier charts).filter Problem.isOfNames = [] := by
  induction charts generalizing earlier with
  | nil => rfl
  | cons c rest ih =>
    rw [problemsOfCharts, List.filter_append, ih]
    simp [problemsOfChart, filter_reportIf, Problem.isOfNames]

theorem filter_isOfNames (m : Mapset) :
    m.problems.filter Problem.isOfNames
      = reportIf (isBlankText m.title) .missingTitle
        ++ reportIf (isBlankText m.artist) .missingArtist
        ++ reportIf (isBlankText m.creator) .missingCreator := by
  unfold problems
  cases m.charts with
  | nil => simp [filter_reportIf, Problem.isOfNames]
  | cons c rest => simp [filter_reportIf, filter_isOfNames_problemsOfCharts, Problem.isOfNames]

theorem message_mem_iff (m : Mapset) {problem : Problem} (h : problem.isOfNames = true) :
    problem.message ∈ m.problems.map Problem.message
      ↔ problem ∈ m.problems.filter Problem.isOfNames := by
  rw [List.mem_map, List.mem_filter, and_iff_left h]
  constructor
  · intro hworded
    obtain ⟨other, hmem, hmessage⟩ := hworded
    rwa [← Problem.eq_of_message_eq h hmessage]
  · intro hmem
    exact ⟨problem, hmem, rfl⟩

theorem mem_reportIf {condition : Bool} {problem other : Problem} :
    other ∈ reportIf condition problem ↔ condition = true ∧ other = problem := by
  cases condition <;> simp [reportIf]

/-- A name is reported missing exactly if it is blank. -/
theorem message_mem_iff_isBlankText (m : Mapset) :
    ("Mapset title is required" ∈ m.problems.map Problem.message ↔ isBlankText m.title = true)
      ∧ ("Artist name is required" ∈ m.problems.map Problem.message ↔ isBlankText m.artist = true)
      ∧ ("Creator name is required" ∈ m.problems.map Problem.message
        ↔ isBlankText m.creator = true) := by
  have htitle : Problem.isOfNames .missingTitle = true := rfl
  have hartist : Problem.isOfNames .missingArtist = true := rfl
  have hcreator : Problem.isOfNames .missingCreator = true := rfl
  refine ⟨(m.message_mem_iff htitle).trans ?_, (m.message_mem_iff hartist).trans ?_,
    (m.message_mem_iff hcreator).trans ?_⟩
  · simp [filter_isOfNames, mem_reportIf]
  · simp [filter_isOfNames, mem_reportIf]
  · simp [filter_isOfNames, mem_reportIf]

end Mapset

/-! ## Names of the first chart -/

theorem isTrimmed_nonEmptyOr {preferred fallback : String} (h : IsTrimmed preferred)
    (hfallback : IsTrimmed fallback) : IsTrimmed (Metadata.nonEmptyOr preferred fallback) := by
  unfold Metadata.nonEmptyOr
  split
  next => exact hfallback
  next => exact h

/-- The metadata of the mapset is that of a chart. -/
structure Mapset.IsNamedAfter (m : Mapset) (c : Chart) : Prop where
  title : m.title = c.metadata.displayTitle
  artist : m.artist = c.metadata.displayArtist
  creator : m.creator = c.metadata.creator
  source : m.source = c.metadata.source
  tags : m.tags = c.metadata.tags
  description : m.description = ""

namespace Mapset

/-- Filling an unnamed mapset gives it the names of its first chart. -/
theorem isNamedAfter_fillFromFirstChart {m : Mapset} {first : Chart} {rest : List Chart}
    (hcharts : m.charts = first :: rest) (htitle : m.title = "") (hartist : m.artist = "")
    (hcreator : m.creator = "") (hsource : m.source = "") (htags : m.tags = "")
    (hdescription : m.description = "") : m.fillFromFirstChart.IsNamedAfter first := by
  unfold fillFromFirstChart
  rw [hcharts, htitle, hartist, hcreator, hsource, htags]
  exact ⟨rfl, rfl, rfl, rfl, rfl, hdescription⟩

/-- The missing names of a mapset named after a chart with trimmed texts. -/
theorem IsNamedAfter.message_mem_iff {m : Mapset} {c : Chart} (h : m.IsNamedAfter c)
    (htrimmed : ∀ text ∈ c.metadata.texts, IsTrimmed text) :
    ("Mapset title is required" ∈ m.problems.map Problem.message
        ↔ c.metadata.title = "" ∧ c.metadata.titleUnicode = "")
      ∧ ("Artist name is required" ∈ m.problems.map Problem.message
        ↔ c.metadata.artist = "" ∧ c.metadata.artistUnicode = "")
      ∧ ("Creator name is required" ∈ m.problems.map Problem.message
        ↔ c.metadata.creator = "") := by
  simp only [Metadata.texts, List.forall_mem_cons] at htrimmed
  obtain ⟨htitle, htitleUnicode, hartist, hartistUnicode, hcreator, -⟩ := htrimmed
  have hblank := m.message_mem_iff_isBlankText
  rw [h.title, h.artist, h.creator, Metadata.displayTitle, Metadata.displayArtist,
    (isTrimmed_nonEmptyOr htitle htitleUnicode).isBlankText_iff,
    (isTrimmed_nonEmptyOr hartist hartistUnicode).isBlankText_iff, hcreator.isBlankText_iff,
    Metadata.nonEmptyOr_eq_empty_iff, Metadata.nonEmptyOr_eq_empty_iff] at hblank
  exact hblank

end Mapset

namespace Processed

theorem isNamedAfter_of_ofEntries {filename : String} {archive : ByteArray} {pool : Option Pool}
    {entries : List Archive.Entry} {p : Processed}
    (h : ofEntries filename archive pool entries = .ok p) :
    ∃ first rest, p.mapset.charts = first :: rest ∧ p.mapset.IsNamedAfter first
      ∧ p.mapset.fillFromFirstChart = p.mapset := by
  unfold ofEntries ofExtraction at h
  split at h
  next => cases h
  dsimp only at h
  split at h
  next => cases h
  next hcharts =>
    rw [List.isEmpty_iff] at hcharts
    obtain ⟨first, rest, hfirst⟩ := List.exists_cons_of_ne_nil hcharts
    rw [← Except.ok.inj h]
    refine ⟨first, rest, ?_, Mapset.isNamedAfter_fillFromFirstChart hfirst rfl rfl rfl rfl rfl rfl,
      Mapset.fillFromFirstChart_fillFromFirstChart _⟩
    exact (fillFromFirstChart_keeps _).2.2.2.1.trans hfirst

theorem isNamedAfter_of_ofArchive {filename : String} {archive : ByteArray} {pool : Option Pool}
    {entriesOf : ByteArray → Except Archive.Defect (List Archive.Entry)} {p : Processed}
    (h : ofArchive filename archive pool entriesOf = .ok p) :
    ∃ first rest, p.mapset.charts = first :: rest ∧ p.mapset.IsNamedAfter first
      ∧ p.mapset.fillFromFirstChart = p.mapset := by
  obtain ⟨entries, hopen, -⟩ := exists_entries_of_ofArchive h
  rw [ofArchive_of_ok filename pool hopen] at h
  exact isNamedAfter_of_ofEntries h

/-- The charts of a processed archive have trimmed texts. -/
theorem isTrimmed_of_mem_charts {filename : String} {archive : ByteArray}
    {entries : List Archive.Entry} {p : Processed} (h : IsMapsetOf filename archive entries p)
    {c : Chart} (hc : c ∈ p.mapset.charts) :
    ∀ text ∈ c.general.texts ++ c.metadata.texts, IsTrimmed text := by
  rw [h.charts] at hc
  obtain ⟨m, -, rfl⟩ := List.mem_map.mp hc
  unfold Member.chart
  dsimp only
  exact Chart.isTrimmed_parse m.text

/-- **Names of mapsets.** The general and metadata texts of a chart in a processed archive are
trimmed and not blank unless empty. The title and the artist of the mapset are the preferred forms
of the first chart, the creator, source and tags are those of the first chart, and the description
is empty. Title, artist and creator are reported missing exactly if the first chart has no text for
them. Filling the names again changes neither the mapset nor its problems. -/
theorem ofArchive_names :
    (∀ text : String, let chart := (Chart.parse text).1
      ∀ field ∈ chart.general.texts ++ chart.metadata.texts,
        String.ofList (trim field.toList) = field ∧ (field = "" ∨ HasText field))
      ∧ ∀ filename archive pool entriesOf p, ofArchive filename archive pool entriesOf = .ok p
        → ∃ first rest, p.mapset.charts = first :: rest
          ∧ p.mapset.title
            = (if first.metadata.title ≠ "" then first.metadata.title
              else first.metadata.titleUnicode)
          ∧ p.mapset.artist
            = (if first.metadata.artist ≠ "" then first.metadata.artist
              else first.metadata.artistUnicode)
          ∧ p.mapset.creator = first.metadata.creator
          ∧ p.mapset.source = first.metadata.source
          ∧ p.mapset.tags = first.metadata.tags
          ∧ p.mapset.description = ""
          ∧ ("Mapset title is required" ∈ p.problems.map Problem.message
            ↔ first.metadata.title = "" ∧ first.metadata.titleUnicode = "")
          ∧ ("Artist name is required" ∈ p.problems.map Problem.message
            ↔ first.metadata.artist = "" ∧ first.metadata.artistUnicode = "")
          ∧ ("Creator name is required" ∈ p.problems.map Problem.message
            ↔ first.metadata.creator = "")
          ∧ p.mapset.fillFromFirstChart = p.mapset
          ∧ p.mapset.fillFromFirstChart.problems = p.problems := by
  refine ⟨?_, ?_⟩
  · intro text chart field hfield
    have htrimmed : IsTrimmed field := Chart.isTrimmed_parse text field hfield
    refine ⟨?_, htrimmed.eq_empty_or_hasText⟩
    rw [htrimmed, String.ofList_toList]
  · intro filename archive pool entriesOf p h
    obtain ⟨first, rest, hcharts, hnamed, hfilled⟩ := isNamedAfter_of_ofArchive h
    obtain ⟨entries, -, hright⟩ := exists_entries_of_ofArchive h
    have hfirst : first ∈ p.mapset.charts := hcharts ▸ List.mem_cons_self ..
    have htexts : ∀ text ∈ first.metadata.texts, IsTrimmed text := fun text htext =>
      isTrimmed_of_mem_charts hright hfirst text (List.mem_append_right _ htext)
    obtain ⟨hnoTitle, hnoArtist, hnoCreator⟩ := hnamed.message_mem_iff htexts
    refine ⟨first, rest, hcharts, ?_, ?_, hnamed.creator, hnamed.source, hnamed.tags,
      hnamed.description, ?_, ?_, ?_, hfilled, ?_⟩
    · rw [hnamed.title, ite_not]
      rfl
    · rw [hnamed.artist, ite_not]
      rfl
    · rw [hright.problems]
      exact hnoTitle
    · rw [hright.problems]
      exact hnoArtist
    · rw [hright.problems]
      exact hnoCreator
    · rw [hfilled, hright.problems]

/-- A chart with a Unicode title only and a blank artist. -/
def nameless : ByteArray := "[Metadata]\nTitleUnicode: \u3042\nArtist: \u3000\nCreator: c".toUTF8

theorem ofArchive_names_of_nameless :
    ∃ p, ofArchive "a.osz" .empty (some .inOrder)
      (fun _ => .ok [.file ["a.osu"] 0 nameless]) = .ok p
      ∧ p.mapset.title = "\u3042"
      ∧ "Mapset title is required" ∉ p.problems.map Problem.message
      ∧ "Artist name is required" ∈ p.problems.map Problem.message
      ∧ "Creator name is required" ∉ p.problems.map Problem.message := by
  have hfiles : (Archive.Extraction.ofEntries [.file ["a.osu"] 0 nameless]).files
      = [(["a.osu"], nameless)] := rfl
  have hmembers : membersOf (.ofEntries [.file ["a.osu"] 0 nameless])
      = [.ofContent "a.osu" nameless] := by
    rw [membersOf, hfiles]
    rfl
  have hchart : ∃ m ∈ membersOf (.ofEntries [.file ["a.osu"] 0 nameless]), m.role = .chart := by
    rw [hmembers]
    exact ⟨.ofContent "a.osu" nameless, List.mem_cons_self .., by decide⟩
  obtain ⟨p, hp, hright⟩ :=
    ofEntries_of_chart "a.osz" .empty (some .inOrder) (by decide) hchart
  have hopen : ofArchive "a.osz" .empty (some .inOrder)
      (fun _ => .ok [.file ["a.osu"] 0 nameless]) = .ok p :=
    (ofArchive_of_ok "a.osz" (some .inOrder) rfl).trans hp
  have hcharts : p.mapset.charts = [(Member.ofContent "a.osu" nameless).chart] := by
    rw [hright.charts, Mapset.membersWithRole, hright.members, hmembers]
    rfl
  obtain ⟨first, rest, hfirst, htitle, -, -, -, -, -, hnoTitle, hnoArtist, hnoCreator, -⟩ :=
    ofArchive_names.2 "a.osz" .empty (some .inOrder)
      (fun _ => .ok [.file ["a.osu"] 0 nameless]) p hopen
  rw [hcharts, List.cons.injEq] at hfirst
  obtain ⟨rfl, -⟩ := hfirst
  refine ⟨p, hopen, ?_, ?_, ?_, ?_⟩
  · rw [htitle]
    decide +kernel
  · rw [hnoTitle]
    decide +kernel
  · rw [hnoArtist]
    decide +kernel
  · rw [hnoCreator]
    decide +kernel

end Processed

end Beatmap
