import Beatmap.Proofs.Content
import Beatmap.Proofs.Version

/-!
# Rearranging the blocks of a file

From its first header on, a file is a sequence of blocks: a header and the lines up to the next one.
`parse_rearranged` shows that any rearrangement of the blocks that preserves the order of the blocks
of each section preserves the chart and the faults of each section; only the line numbers change.

The proof has two parts. The contribution of a line of a block is determined by the line and the
section of its block (`IsLocal`), so the contribution of a section is the concatenation of the
contributions of its own blocks (`eachInContext_rearranged`). The version is determined before the
first block, since a header states none (`version_before_blocks`).
-/

namespace Beatmap

open Beatmap.Text

/-- A header and the lines below it, none of which is a header. -/
structure Block where
  header : List Char
  body : List (List Char)
  area : Section
  opens : opens? header = some area
  bodyOpens : ∀ raw ∈ body, opens? raw = none

/-- The lines of a block, with its header. -/
def Block.lines (b : Block) : List (List Char) := b.header :: b.body

/-- The second list is a permutation of the first one that preserves the order of the blocks of each
section. -/
structure Rearranged (blocks blocks' : List Block) : Prop where
  perm : blocks.Perm blocks'
  sameOrder : ∀ area, blocks.filter (·.area == area) = blocks'.filter (·.area == area)

/-- Adjacent blocks of different sections commute. -/
theorem Rearranged.swap {a b : Block} (h : a.area ≠ b.area) (rest : List Block) :
    Rearranged (a :: b :: rest) (b :: a :: rest) where
  perm := .swap b a rest
  sameOrder area := by
    by_cases ha : a.area = area
    · have hb : ¬b.area = area := fun hb => h (ha.trans hb.symm)
      simp [ha, hb]
    · simp [List.filter_cons, ha]

/-- The faults of the diagnostics in a section, in order. -/
def faultsIn (area : Section) (diagnostics : List Diagnostic) : List Fault :=
  (diagnostics.filter (·.inSection == area)).map (·.fault)

/-! ## Contributions of blocks -/

theorem areaAfter_header (before : List (List Char)) {header : List Char} {s : Section}
    {under : List (List Char)} (ho : opens? header = some s)
    (hunder : ∀ raw ∈ under, opens? raw = none) : areaAfter (before ++ header :: under) = s := by
  have hnone : under.filterMap opens? = [] := List.filterMap_eq_nil_iff.mpr hunder
  rw [areaAfter, List.filterMap_append, List.filterMap_cons_some ho, hnone, List.getLastD_concat]

/-- The contribution of a line after the first header is determined by the line and its section, and
headers contribute nothing. -/
structure IsLocal {β : Type} (give : List (List Char) → List Char → Option β)
    (say : Section → List Char → Option β) : Prop where
  header : ∀ before {raw s}, opens? raw = some s → give before raw = none
  other : ∀ {before raw}, areaAfter before ≠ .preamble → opens? raw = none →
    give before raw = say (areaAfter before) raw

section Local

variable {β : Type} {give : List (List Char) → List Char → Option β}
  {say : Section → List Char → Option β}

/-- The contributions of the lines of a block. -/
theorem IsLocal.eachInContext_header (h : IsLocal give say) (before : List (List Char))
    {header : List Char} {s : Section} (ho : opens? header = some s) (under : List (List Char))
    (hunder : ∀ raw ∈ under, opens? raw = none) :
    eachInContext give (before ++ header :: under)
      = eachInContext give before ++ under.filterMap (say s) := by
  induction under using List.reverseRecOn with
  | nil =>
    rw [eachInContext_concat, h.header before ho]
    rfl
  | append_singleton under raw ih =>
    have hfirst : ∀ line ∈ under, opens? line = none :=
      fun line hline => hunder line (List.mem_append_left _ hline)
    have hraw : opens? raw = none := hunder raw (by simp)
    have harea : areaAfter (before ++ header :: under) = s := areaAfter_header before ho hfirst
    have hne : areaAfter (before ++ header :: under) ≠ .preamble := by
      intro he
      rw [harea] at he
      exact Section.ofHeader?_ne_preamble (he ▸ ho)
    have hassoc : before ++ header :: (under ++ [raw]) = (before ++ header :: under) ++ [raw] := by
      rw [List.append_assoc, List.cons_append]
    rw [hassoc, eachInContext_concat, ih hfirst, h.other hne hraw, harea, List.filterMap_append,
      List.append_assoc]
    cases hs : say s raw <;> simp [hs]

/-- The contributions of a file that ends with the given blocks. -/
theorem IsLocal.eachInContext_blocks (h : IsLocal give say) (before : List (List Char))
    (blocks : List Block) :
    eachInContext give (before ++ blocks.flatMap Block.lines)
      = eachInContext give before ++ blocks.flatMap fun b => b.body.filterMap (say b.area) := by
  induction blocks generalizing before with
  | nil => simp
  | cons b rest ih =>
    rw [List.flatMap_cons, List.flatMap_cons, ← List.append_assoc, ih, Block.lines,
      h.eachInContext_header before b.opens b.body b.bodyOpens, List.append_assoc]

/-- Elements with an empty image can be filtered out. -/
theorem flatMap_filter_eq {α : Type} {p : α → Bool} {f : α → List β}
    (h : ∀ a, p a = false → f a = []) (l : List α) : (l.filter p).flatMap f = l.flatMap f := by
  induction l with
  | nil => rfl
  | cons a rest ih =>
    cases hp : p a with
    | true => rw [List.filter_cons_of_pos hp, List.flatMap_cons, List.flatMap_cons, ih]
    | false =>
      rw [List.filter_cons_of_neg (by simp [hp]), List.flatMap_cons, h a hp, List.nil_append, ih]

/-- A contribution that comes from one section only is preserved by rearranging blocks. -/
theorem IsLocal.eachInContext_rearranged (h : IsLocal give say) (area : Section)
    (honly : ∀ other raw, other ≠ area → say other raw = none) (before : List (List Char))
    {blocks blocks' : List Block} (hr : Rearranged blocks blocks') :
    eachInContext give (before ++ blocks.flatMap Block.lines)
      = eachInContext give (before ++ blocks'.flatMap Block.lines) := by
  have hothers : ∀ b : Block, (b.area == area) = false → b.body.filterMap (say b.area) = [] := by
    intro b hb
    rw [List.filterMap_eq_nil_iff]
    intro raw _
    exact honly b.area raw (beq_eq_false_iff_ne.mp hb)
  rw [h.eachInContext_blocks, h.eachInContext_blocks, ← flatMap_filter_eq hothers blocks,
    ← flatMap_filter_eq hothers blocks', hr.sameOrder area]

end Local

/-! ## Lines and faults of a section -/

theorem governedBy_rearranged (area : Section) (before : List (List Char))
    {blocks blocks' : List Block} (hr : Rearranged blocks blocks') :
    governedBy area (before ++ blocks.flatMap Block.lines)
      = governedBy area (before ++ blocks'.flatMap Block.lines) := by
  have hlocal : IsLocal
      (fun before raw => if isContent raw ∧ areaAfter before = area then some raw else none)
      (fun other raw => if isContent raw ∧ other = area then some raw else none) := by
    refine ⟨?_, fun _ _ => rfl⟩
    intro before raw s ho
    simp [not_isContent_of_opens ho]
  exact hlocal.eachInContext_rearranged area (fun other raw hne => by simp [hne]) before hr

/-- The faults of a section, line by line. -/
theorem faultsIn_ofLines (area : Section) (lines : List (List Char)) :
    faultsIn area (Chart.ofLines lines).2
      = eachInContext (fun before raw =>
          if isContent raw ∧ areaAfter before = area then Reader.faultAfter before raw else none)
          lines := by
  have hall : (Chart.ofLines lines).2 = eachInContext Reader.diagnosticAfter lines :=
    Reader.diagnostics_feedAll lines
  rw [hall, faultsIn, eachInContext, List.filter_filterMap, List.map_filterMap, eachInContext]
  apply List.filterMap_congr
  intro k _
  cases hraw : lines[k]? with
  | none => rfl
  | some raw =>
    simp only [Option.bind_some, Reader.diagnosticAfter]
    cases hc : isContent raw with
    | false => rfl
    | true =>
      cases hf : Reader.faultAfter (lines.take k) raw with
      | none => simp
      | some fault => by_cases ha : areaAfter (lines.take k) = area <;> simp [ha]

theorem faultsIn_rearranged (area : Section) (before : List (List Char))
    {blocks blocks' : List Block} (hr : Rearranged blocks blocks') :
    faultsIn area (Chart.ofLines (before ++ blocks.flatMap Block.lines)).2
      = faultsIn area (Chart.ofLines (before ++ blocks'.flatMap Block.lines)).2 := by
  rw [faultsIn_ofLines, faultsIn_ofLines]
  have hlocal : IsLocal
      (fun before raw =>
        if isContent raw ∧ areaAfter before = area then Reader.faultAfter before raw else none)
      (fun other raw =>
        if isContent raw ∧ other = area then (Statement.read other (trim raw)).fault
        else none) := by
    constructor
    · intro before raw s ho
      simp [not_isContent_of_opens ho]
    · intro before raw hne ho
      -- A line below a header is not the first meaningful one.
      rw [Reader.faultAfter, if_pos (any_of_areaAfter_ne hne)]
  exact hlocal.eachInContext_rearranged area (fun other raw hne => by simp [hne]) before hr

/-! ## Charts of rearranged files -/

theorem Chart.take_names (chart : Chart) (reading : Reading Statement) :
    (chart.take reading).sourceFilename = chart.sourceFilename
      ∧ (chart.take reading).contentHash = chart.contentHash := by
  unfold take
  split
  next statement _ => cases statement <;> exact ⟨rfl, rfl⟩
  next => exact ⟨rfl, rfl⟩

/-- Reading lines does not set the source of a chart. -/
theorem names_feedAll (lines : List (List Char)) :
    (Reader.feedAll {} lines).chart.sourceFilename = ""
      ∧ (Reader.feedAll {} lines).chart.contentHash = "" := by
  induction lines using List.reverseRecOn with
  | nil => exact ⟨rfl, rfl⟩
  | append_singleton lines raw ih =>
    rw [Reader.feedAll_concat]
    cases hc : isContent raw with
    | false => rwa [Reader.chart_feed_other _ hc]
    | true =>
      obtain ⟨version, hchart⟩ := Reader.chart_feed_content lines hc
      obtain ⟨hsource, hhash⟩ := Chart.take_names (Reader.feedAll {} lines).chart
        (Statement.read (areaAfter lines) (trim raw))
      rw [hchart]
      exact ⟨hsource.trans ih.1, hhash.trans ih.2⟩

/-- Charts with equal versions, sources and section contents have equal metrics. -/
theorem Chart.withMetrics_congr {a b : Chart} (hversion : a.formatVersion = b.formatVersion)
    (hsource : a.sourceFilename = b.sourceFilename) (hhash : a.contentHash = b.contentHash)
    (hcontent : ∀ area, a.content area = b.content area) : a.withMetrics = b.withMetrics := by
  have hgeneral : a.general = b.general := hcontent .general
  have heditor : a.editor = b.editor := hcontent .editor
  have hmetadata : a.metadata = b.metadata := hcontent .metadata
  have hdifficulty : a.difficulty = b.difficulty := hcontent .difficulty
  have hevents : a.events = b.events := hcontent .events
  have hpoints : a.timingPoints = b.timingPoints := hcontent .timingPoints
  have hcolours : a.comboColours = b.comboColours := hcontent .colours
  have hobjects : a.hitObjects = b.hitObjects := hcontent .hitObjects
  simp only [withMetrics, hversion, hsource, hhash, hgeneral, heditor, hmetadata, hdifficulty,
    hevents, hpoints, hcolours, hobjects]

/-- Files with the same version and the same lines in each section have the same chart. -/
theorem chart_ofLines_congr {lines lines' : List (List Char)}
    (hversion : (Reader.feedAll {} lines).chart.formatVersion
      = (Reader.feedAll {} lines').chart.formatVersion)
    (hlines : ∀ area, governedBy area lines = governedBy area lines') :
    (Chart.ofLines lines).1 = (Chart.ofLines lines').1 := by
  obtain ⟨hsource, hhash⟩ := names_feedAll lines
  obtain ⟨hsource', hhash'⟩ := names_feedAll lines'
  apply Chart.withMetrics_congr hversion (hsource.trans hsource'.symm) (hhash.trans hhash'.symm)
  intro area
  rw [content_feedAll, content_feedAll, hlines area]

/-- Blocks do not affect the version. -/
theorem version_before_blocks (before : List (List Char)) (blocks : List Block) :
    (Reader.feedAll {} (before ++ blocks.flatMap Block.lines)).chart.formatVersion
      = (Reader.feedAll {} before).chart.formatVersion := by
  rw [formatVersion_feedAll, formatVersion_feedAll, List.find?_append]
  cases hfirst : before.find? isMeaningful with
  | some first => rfl
  | none =>
    cases blocks with
    | nil => rfl
    | cons b rest =>
      -- The first meaningful line is the header of the first block.
      have hm : isMeaningful b.header = true := isMeaningful_of_opens b.opens
      rw [List.flatMap_cons, Block.lines, List.cons_append, List.find?_cons_of_pos hm]
      simp [versionOf, readVersion_of_opens b.opens]

/-- **Blocks of different sections commute.** Two texts with the same lines before the first header,
followed by rearranged blocks, have the same chart and the same faults in each section. -/
theorem parse_rearranged {text text' : String} {before : List (List Char)}
    {blocks blocks' : List Block} (hr : Rearranged blocks blocks')
    (htext : linesOf text.toList = before ++ blocks.flatMap Block.lines)
    (htext' : linesOf text'.toList = before ++ blocks'.flatMap Block.lines) :
    (Chart.parse text).1 = (Chart.parse text').1
      ∧ ∀ area, faultsIn area (Chart.parse text).2 = faultsIn area (Chart.parse text').2 := by
  rw [Chart.parse, Chart.parse, htext, htext']
  constructor
  · apply chart_ofLines_congr
    · rw [version_before_blocks, version_before_blocks]
    · exact fun area => governedBy_rearranged area before hr
  · exact fun area => faultsIn_rearranged area before hr

/-- A section of two blocks, with a block of another section between them or before both. -/
theorem parse_rearranged_of_split_section :
    let first : Block := ⟨"[General]".toList, ["Mode: 1".toList], .general, by decide, by decide⟩
    let other : Block :=
      ⟨" [Metadata]".toList, ["stray".toList, "Title: A".toList], .metadata, by decide, by decide⟩
    let second : Block :=
      ⟨"[General]".toList, ["Mode: 3".toList, "Mode: x".toList], .general, by decide, by decide⟩
    let text :=
      "osu v9\n[General]\nMode: 1\n [Metadata]\nstray\nTitle: A\n[General]\nMode: 3\nMode: x"
    let text' :=
      "osu v9\n [Metadata]\nstray\nTitle: A\n[General]\nMode: 1\n[General]\nMode: 3\nMode: x"
    Rearranged [first, other, second] [other, first, second]
      ∧ linesOf text.toList = ["osu v9".toList] ++ [first, other, second].flatMap Block.lines
      ∧ linesOf text'.toList = ["osu v9".toList] ++ [other, first, second].flatMap Block.lines
      ∧ (Chart.parse text).1 = (Chart.parse text').1
      ∧ ∀ area, faultsIn area (Chart.parse text).2 = faultsIn area (Chart.parse text').2 := by
  intro first other second text text'
  have hr : Rearranged [first, other, second] [other, first, second] := .swap (by decide) [second]
  have htext : linesOf text.toList
      = ["osu v9".toList] ++ [first, other, second].flatMap Block.lines := by decide +kernel
  have htext' : linesOf text'.toList
      = ["osu v9".toList] ++ [other, first, second].flatMap Block.lines := by decide +kernel
  exact ⟨hr, htext, htext', parse_rearranged hr htext htext'⟩

end Beatmap
