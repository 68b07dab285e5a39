import Beatmap.Mapset.Problem
import Beatmap.Proofs.Stored

/-!
# Round trip through JSON

Records are encoded as values with regular numbers, so parsing the printed text gives the value back
(`Json.parse_print`), and decoding the value gives the record back. `roundTrip` combines the two for
all records. A mapset is restored without the contents of its members, on which its derived data do
not depend (`AnswersAlike`).
-/

namespace Beatmap

open Json (Value FloatReader Style Literal)
open Json.Value (IsRegular)

namespace Json

/-- Parses and decodes a text. -/
def fromText? {α : Type} (read : Value → Option α) (text : List Char) : Option α :=
  (parse text).bind read

theorem fromText?_print {α : Type} (read : Value → Option α) (style : Style) {v : Value}
    (h : v.IsRegular) : fromText? read (v.print style) = read v := by
  rw [fromText?, parse_print style h]
  rfl

/-! ## Encoded records are regular -/

namespace Value

@[simp]
theorem isRegular_bool (b : Bool) : (Value.bool b).IsRegular := .bool b

@[simp]
theorem isRegular_text (s : String) : (text s).IsRegular := .string _

@[simp]
theorem isRegular_int (n : Int) : (int n).IsRegular := .number (Literal.isRegular_ofInt n)

@[simp]
theorem isRegular_int32 (n : Int32) : (int32 n).IsRegular := isRegular_int _

theorem isRegular_floating (layout : Layout) {f : Number.Format} (x : Number.Floating f) :
    (floating layout x).IsRegular := by
  unfold floating
  split
  next h => exact .number (layout.isRegular_literal (exponent_shortest h))
  next => exact .null

@[simp]
theorem isRegular_single (x : Number.Single) : (single x).IsRegular := isRegular_floating _ x

@[simp]
theorem isRegular_double (x : Number.Double) : (double x).IsRegular := isRegular_floating _ x

theorem isRegular_list {α : Type} {encode : α → Value} (h : ∀ a, (encode a).IsRegular)
    (items : List α) : (list encode items).IsRegular := by
  refine .array fun v hv => ?_
  obtain ⟨a, -, rfl⟩ := List.mem_map.mp hv
  exact h a

theorem isRegular_record {names : List String} {values : List Value}
    (h : ∀ v ∈ values, v.IsRegular) : (record names values).IsRegular :=
  .object fun _ hf => h _ (List.of_mem_zip hf).2

end Value

end Json

open Json.Value

@[simp]
theorem isRegular_uint64 (n : UInt64) : (uint64 n).IsRegular := isRegular_int _

theorem TimingPoint.isRegular_toJson (p : TimingPoint) : p.toJson.IsRegular :=
  isRegular_record (by simp)

theorem HitObject.isRegular_toJson (o : HitObject) : o.toJson.IsRegular :=
  isRegular_record (by simp)

theorem BreakPeriod.isRegular_toJson (b : BreakPeriod) : b.toJson.IsRegular :=
  isRegular_record (by simp)

theorem Colour.isRegular_toJson (c : Colour) : c.toJson.IsRegular :=
  isRegular_record (by simp)

theorem Chart.isRegular_toJson (c : Chart) : c.toJson.IsRegular := by
  have hbookmarks : (list int32 c.editor.bookmarks).IsRegular := isRegular_list isRegular_int32 _
  have hbreaks : (arrayOf BreakPeriod.toJson c.events.breaks).IsRegular :=
    isRegular_list BreakPeriod.isRegular_toJson _
  have hpoints : (arrayOf TimingPoint.toJson c.timingPoints).IsRegular :=
    isRegular_list TimingPoint.isRegular_toJson _
  have hcolours : (arrayOf Colour.toJson c.comboColours).IsRegular :=
    isRegular_list Colour.isRegular_toJson _
  have hobjects : (arrayOf HitObject.toJson c.hitObjects).IsRegular :=
    isRegular_list HitObject.isRegular_toJson _
  refine isRegular_record ?_
  simp [fieldValues, General.fieldValues, Editor.fieldValues, Metadata.fieldValues,
    Difficulty.fieldValues, Events.fieldValues, Metrics.fieldValues, hbookmarks, hbreaks, hpoints,
    hcolours, hobjects]

theorem Member.isRegular_toJson (m : Member) : m.toJson.IsRegular := by
  have hrole : m.role.toJson.IsRegular := isRegular_text _
  exact isRegular_record (by simp [hrole])

theorem Mapset.isRegular_toJson (m : Mapset) : m.toJson.IsRegular := by
  have hcharts : (list Chart.toJson m.charts).IsRegular := isRegular_list Chart.isRegular_toJson _
  have hmembers : (list Member.toJson m.members).IsRegular :=
    isRegular_list Member.isRegular_toJson _
  exact isRegular_record (by simp [hcharts, hmembers])

/-! ## Derived data of a mapset -/

namespace Mapset

/-- The restored mapset has the same problems and keys as the stored one, and the same members up to
their contents. -/
structure AnswersAlike (restored m : Mapset) : Prop where
  problems : restored.problems = m.problems
  findMember : ∀ path, restored.findMember? path = (m.findMember? path).map Member.withoutContent
  foundAt : ∀ path, restored.members.findIdx? (·.matchesPath path)
    = m.members.findIdx? (·.matchesPath path)
  membersWithRole : ∀ role, restored.membersWithRole role
    = (m.membersWithRole role).map Member.withoutContent
  withRoleAt : ∀ role, restored.members.findIdxs (·.role == role)
    = m.members.findIdxs (·.role == role)
  archiveKey : restored.archiveStorageKey = m.archiveStorageKey
  memberKeys : restored.members.map (·.storageKey) = m.members.map (·.storageKey)
  chartMember : ∀ c, restored.chartMember? c = (m.chartMember? c).map Member.withoutContent
  sourceAt : ∀ c, restored.members.findIdx? (isSourceOf c) = m.members.findIdx? (isSourceOf c)

theorem membersWithRole_withoutContents (m : Mapset) (role : Role) :
    m.withoutContents.membersWithRole role = (m.membersWithRole role).map Member.withoutContent :=
  List.filter_map

theorem hasAudio_withoutContents (m : Mapset) (filename : String) :
    m.withoutContents.hasAudio filename = m.hasAudio filename := by
  rw [hasAudio, membersWithRole_withoutContents, List.any_map]
  rfl

theorem problemsOfCharts_withoutContents (m : Mapset) (earlier charts : List Chart) :
    m.withoutContents.problemsOfCharts earlier charts = m.problemsOfCharts earlier charts := by
  induction charts generalizing earlier with
  | nil => rfl
  | cons c rest ih =>
    rw [problemsOfCharts, problemsOfCharts, ih, problemsOfChart, hasAudio_withoutContents]
    rfl

theorem problems_withoutContents (m : Mapset) : m.withoutContents.problems = m.problems := by
  rw [problems, problemsOfCharts_withoutContents, membersWithRole_withoutContents, List.isEmpty_map]
  rfl

theorem answersAlike_withoutContents (m : Mapset) : m.withoutContents.AnswersAlike m where
  problems := problems_withoutContents m
  findMember _ := List.find?_map
  foundAt _ := List.findIdx?_map
  membersWithRole := membersWithRole_withoutContents m
  withRoleAt _ := List.findIdxs_map
  archiveKey := rfl
  memberKeys := List.map_map
  chartMember _ := List.find?_map
  sourceAt _ := List.findIdx?_map

end Mapset

/-- **Round trip.** For every decoder of floating-point numbers that recovers the numbers of a
mapset, the printed mapset is decoded exactly if all its numbers are finite, and the result is the
mapset without the contents of its members. The same holds for charts and timing points, and records
without floating-point numbers are always decoded. -/
theorem roundTrip (floats : FloatReader) (style : Style) :
    (∀ m : Mapset, (∀ q ∈ m.quantities, floats.Recovers q) →
        Json.fromText? (Mapset.ofJson? floats) (m.toJson.print style)
            = (if m.quantities.all Quantity.isFinite then some m.withoutContents else none)
          ∧ m.withoutContents.AnswersAlike m)
      ∧ (∀ c : Chart, (∀ q ∈ c.quantities, floats.Recovers q) →
        Json.fromText? (Chart.ofJson? floats) (c.toJson.print style)
          = if c.quantities.all Quantity.isFinite then some c else none)
      ∧ (∀ p : TimingPoint, (∀ q ∈ p.quantities, floats.Recovers q) →
        Json.fromText? (TimingPoint.ofJson? floats) (p.toJson.print style)
          = if p.quantities.all Quantity.isFinite then some p else none)
      ∧ (∀ o : HitObject, Json.fromText? HitObject.ofJson? (o.toJson.print style) = some o
        ∧ o.toJson.fieldsOf? ["type"] = some [int32 o.type])
      ∧ (∀ b : BreakPeriod, Json.fromText? BreakPeriod.ofJson? (b.toJson.print style) = some b)
      ∧ (∀ c : Colour, Json.fromText? Colour.ofJson? (c.toJson.print style) = some c)
      ∧ ∀ m : Member, Json.fromText? Member.ofJson? (m.toJson.print style)
        = some m.withoutContent := by
  refine ⟨?_, ?_, ?_, ?_, ?_, ?_, ?_⟩
  · intro m h
    rw [Json.fromText?_print _ style m.isRegular_toJson]
    exact ⟨Mapset.ofJson?_toJson h, m.answersAlike_withoutContents⟩
  · intro c h
    rw [Json.fromText?_print _ style c.isRegular_toJson]
    exact Chart.ofJson?_toJson h
  · intro p h
    rw [Json.fromText?_print _ style p.isRegular_toJson]
    exact TimingPoint.ofJson?_toJson h
  · intro o
    rw [Json.fromText?_print _ style o.isRegular_toJson]
    exact ⟨o.ofJson?_toJson, rfl⟩
  · intro b
    rw [Json.fromText?_print _ style b.isRegular_toJson]
    exact b.ofJson?_toJson
  · intro c
    rw [Json.fromText?_print _ style c.isRegular_toJson]
    exact c.ofJson?_toJson
  · intro m
    rw [Json.fromText?_print _ style m.isRegular_toJson]
    exact m.ofJson?_toJson

/-- A timing point whose beat length has no finite decimal expansion. -/
def TimingPoint.thirds : TimingPoint := ⟨0, .ofRatio false 1000 3, 4, 0, 0, 100, true, 0⟩

/-- A timing point with an infinite beat length. -/
def TimingPoint.endless : TimingPoint := ⟨1, .infinite false, 4, 0, 0, 100, false, 0⟩

/-- A mapset of one chart with the given timing points. -/
def Mapset.withPoints (points : Array TimingPoint) : Mapset where
  title := "\"\\\n\t"
  charts := [{ timingPoints := points }]
  members := [.ofContent "a.osu" ⟨#[1]⟩]

theorem roundTrip_of_thirds :
    let endless := Mapset.withPoints #[.thirds, .endless]
    let timely := Mapset.withPoints #[.thirds]
    let chart : Chart := { timingPoints := #[.endless] }
    Json.fromText? Mapset.ofJson? (endless.toJson.print .lined) = none
      ∧ Json.fromText? Mapset.ofJson? (timely.toJson.print .lined) = some timely.withoutContents
      ∧ Json.fromText? Chart.ofJson? (chart.toJson.print .lined) = none
      ∧ Json.fromText? TimingPoint.ofJson? (TimingPoint.thirds.toJson.print .lined)
        = some .thirds
      ∧ ∀ m : Mapset, (∀ q ∈ m.quantities, FloatReader.rounding.Recovers q)
        ∧ Json.fromText? (Mapset.ofJson? .rounding) (m.toJson.print .lined)
          = if m.quantities.all Quantity.isFinite then some m.withoutContents else none := by
  intro endless timely chart
  obtain ⟨hmapset, hchart, hpoint, -⟩ := roundTrip Value.floating? .lined
  refine ⟨?_, ?_, ?_, ?_, ?_⟩
  · rw [(hmapset endless (by decide +kernel)).1]
    exact if_neg (by decide +kernel)
  · rw [(hmapset timely (by decide +kernel)).1]
    exact if_pos (by decide +kernel)
  · rw [hchart chart (by decide +kernel)]
    exact if_neg (by decide +kernel)
  · rw [hpoint .thirds (by decide +kernel)]
    exact if_pos (by decide +kernel)
  · -- A reader that rounds once recovers every number, so it reads the text of any mapset.
    intro m
    have hrecovers : ∀ q ∈ m.quantities, FloatReader.rounding.Recovers q := fun q _ =>
      FloatReader.rounding_recovers q
    exact ⟨hrecovers, ((roundTrip .rounding .lined).1 m hrecovers).1⟩

end Beatmap
