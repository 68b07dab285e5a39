import Beatmap.Proofs.Content

/-!
# Records of a file, line by line

Hit objects, timing points, breaks and combo colours are lists to which the lines of one section
append. `records_eq_flatMap_alone` shows that each list of a parsed text is the concatenation of the
lists obtained by parsing each line of its section alone under a header; lines of other sections do
not contribute.

The four lists are instances of `RecordPart`, a component that starts empty and is only appended to.
`RecordPart.recordsOf_parse` is the statement for any such component.
-/

namespace Beatmap

open Beatmap.Text

/-- A list of records in the component of a section to which lines append. -/
structure RecordPart (β : Type) where
  area : Section
  view : area.Content → List β
  /-- The records of a line of the section. -/
  said : List Char → List β
  view_step : ∀ line content, view (area.step line content) = view content ++ said line
  view_empty : view (Chart.content {} area) = []

namespace RecordPart

variable {β : Type}

/-- The records of statements of one kind, one record for each statement. -/
def ofPushes (area : Section) (records : area.Content → Array β) (read : List Char → Reading β)
    (wrap : β → Statement) (hread : ∀ line, Statement.read area line = (read line).map wrap)
    (hpush : ∀ record content,
      records (area.apply (wrap record) content) = (records content).push record)
    (hempty : records (Chart.content {} area) = #[]) : RecordPart β where
  area := area
  view content := (records content).toList
  said line := (read line).value.toList
  view_step line content := by
    simp only [Section.step, hread, Reading.map]
    cases (read line).value with
    | none => exact (List.append_nil _).symm
    | some record =>
      show (records (area.apply (wrap record) content)).toList = _
      rw [hpush, Array.toList_push]
      rfl
  view_empty := by rw [hempty]

def hitObjects : RecordPart HitObject :=
  .ofPushes .hitObjects (fun objects => objects) HitObject.read .hitObject (fun _ => rfl)
    (fun _ _ => rfl) rfl

def timingPoints : RecordPart TimingPoint :=
  .ofPushes .timingPoints (fun points => points) TimingPoint.read .timingPoint (fun _ => rfl)
    (fun _ _ => rfl) rfl

def comboColours : RecordPart Colour :=
  .ofPushes .colours (fun colours => colours) Colour.read .comboColour (fun _ => rfl)
    (fun _ _ => rfl) rfl

/-- The breaks of an event. -/
def breaksIn : Event → List BreakPeriod
  | .background _ => []
  | .pause period => [period]

def breaks : RecordPart BreakPeriod where
  area := .events
  view events := (Events.breaks events).toList
  said line := (Event.read line).value.toList.flatMap breaksIn
  view_step line events := by
    simp only [Section.step, Statement.read, Reading.map]
    cases (Event.read line).value with
    | none => exact (List.append_nil _).symm
    | some event =>
      cases event with
      | background filename => exact (List.append_nil _).symm
      | pause period => exact Array.toList_push
  view_empty := rfl

variable (p : RecordPart β)

/-- The records of a chart. -/
def recordsOf (chart : Chart) : List β := p.view (chart.content p.area)

/-- A further line of the section appends its records. -/
theorem recordsOf_feed {before : List (List Char)} {raw : List Char} (h : areaAfter before = p.area)
    (hc : isContent raw = true) :
    p.recordsOf ((Reader.feedAll {} before).feed raw).chart
      = p.recordsOf (Reader.feedAll {} before).chart ++ p.said (trim raw) := by
  obtain ⟨version, hchart⟩ := Reader.chart_feed_content before hc
  rw [recordsOf, hchart, Chart.content_version, h, Chart.content_take, p.view_step, recordsOf]

/-- The records of some lines are the concatenation of the records of the lines of the section. -/
theorem recordsOf_ofLines (lines : List (List Char)) :
    p.recordsOf (Chart.ofLines lines).1
      = (governedBy p.area lines).flatMap fun raw => p.said (trim raw) := by
  -- Projected to the records, the fold appends the records of each line.
  have hrun : (governedBy p.area lines).foldl (fun records raw => records ++ p.said (trim raw))
        (p.view (Chart.content {} p.area))
      = p.view ((governedBy p.area lines).foldl (fun content raw => p.area.step (trim raw) content)
          (Chart.content {} p.area)) :=
    List.foldl_hom p.view fun content raw => (p.view_step (trim raw) content).symm
  rw [recordsOf, content_ofLines, ← hrun, p.view_empty, List.flatMap_eq_foldl]

end RecordPart

/-! ## A single line under a header -/

/-- The header line of a section. -/
def Section.headerLine (s : Section) : List Char := '[' :: (s.title.toList ++ [']'])

theorem Section.headerLine_spec :
    ∀ s ∈ named, '\n' ∉ s.headerLine ∧ opens? s.headerLine = some s := by decide

/-- The lines of a text that consists of a header and one line. -/
theorem linesOf_headerLine {s : Section} {raw : List Char} (hh : '\n' ∉ s.headerLine)
    (hr : '\n' ∉ raw) : linesOf (s.headerLine ++ '\n' :: raw) = [s.headerLine, raw] := by
  show pieces '\n' (s.headerLine ++ '\n' :: raw) = _
  rw [pieces_append_cons hh, pieces_eq_singleton hr]

theorem governedBy_pair {header raw : List Char} {s : Section} (ho : opens? header = some s)
    (hc : isContent raw = true) : governedBy s [header, raw] = [raw] := by
  have harea : areaAfter [header] = s := areaAfter_concat_header [] ho
  rw [governedBy, show [header, raw] = ([] ++ [header]) ++ [raw] from rfl, eachInContext_concat,
    eachInContext_concat]
  simp [eachInContext, not_isContent_of_opens ho, hc, harea]

/-- The records of a text are the concatenation of the records of the lines of the section, each
parsed alone under the header of the section. -/
theorem RecordPart.recordsOf_parse {β : Type} (p : RecordPart β) (hnamed : p.area ∈ Section.named)
    {opening : String} (hopening : opening.toList = p.area.headerLine ++ ['\n']) (text : String) :
    p.recordsOf (Chart.parse text).1
      = (governedBy p.area (linesOf text.toList)).flatMap fun raw =>
          p.recordsOf (Chart.parse (opening ++ String.ofList raw)).1 := by
  obtain ⟨hh, ho⟩ := Section.headerLine_spec p.area hnamed
  rw [Chart.parse, p.recordsOf_ofLines]
  apply List.flatMap_congr
  intro raw hraw
  -- The line is a piece of the text, so it contains no newline.
  obtain ⟨hc, k, hk, -⟩ := mem_governedBy.mp hraw
  have hr : '\n' ∉ raw := not_mem_of_mem_pieces (List.mem_of_getElem? hk)
  have halone : linesOf (opening ++ String.ofList raw).toList = [p.area.headerLine, raw] := by
    rw [String.toList_append, String.toList_ofList, hopening, List.append_assoc,
      List.singleton_append, linesOf_headerLine hh hr]
  rw [Chart.parse, halone, p.recordsOf_ofLines, governedBy_pair ho hc, List.flatMap_singleton]

/-- **Records line by line.** Each list of records of a text is the concatenation, in file order, of
the records obtained by parsing each line of content of its section alone under the header of that
section. -/
theorem records_eq_flatMap_alone (text : String) :
    (Chart.parse text).1.hitObjects.toList
        = (governedBy .hitObjects (linesOf text.toList)).flatMap (fun raw =>
            (Chart.parse ("[HitObjects]\n" ++ String.ofList raw)).1.hitObjects.toList)
      ∧ (Chart.parse text).1.timingPoints.toList
        = (governedBy .timingPoints (linesOf text.toList)).flatMap (fun raw =>
            (Chart.parse ("[TimingPoints]\n" ++ String.ofList raw)).1.timingPoints.toList)
      ∧ (Chart.parse text).1.events.breaks.toList
        = (governedBy .events (linesOf text.toList)).flatMap (fun raw =>
            (Chart.parse ("[Events]\n" ++ String.ofList raw)).1.events.breaks.toList)
      ∧ (Chart.parse text).1.comboColours.toList
        = (governedBy .colours (linesOf text.toList)).flatMap (fun raw =>
            (Chart.parse ("[Colours]\n" ++ String.ofList raw)).1.comboColours.toList) := by
  refine ⟨?_, ?_, ?_, ?_⟩
  · exact RecordPart.hitObjects.recordsOf_parse (by decide) (by decide) text
  · exact RecordPart.timingPoints.recordsOf_parse (by decide) (by decide) text
  · exact RecordPart.breaks.recordsOf_parse (by decide) (by decide) text
  · exact RecordPart.comboColours.recordsOf_parse (by decide) (by decide) text

end Beatmap
