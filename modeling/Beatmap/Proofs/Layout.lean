import Beatmap.Proofs.Blank
import Beatmap.Proofs.Blocks
import Beatmap.Proofs.Diagnostics

/-!
# Invariance under layout edits

`LayoutEdit` lists edits of a text that do not affect its meaning: inserting and removing blank
lines, comments and surrounding white space, repeating the current header, inserting blocks of
unknown sections, and changing line endings and the final newline. `parse_layoutEdits` shows that
any sequence of such edits preserves the chart and the diagnostics, up to the line numbers.

Insertions are handled by comparing readers after the insertion: the reader with the inserted lines
is the reader without them, with shifted line numbers (`Reader.moved`), and remains so for all
further lines (`feedAll_moved`). Removals are the converse. All other edits preserve the trimmed
lines, which determine the reader (`feedAll_congr_trim`).
-/

namespace Beatmap

open Beatmap.Text

/-! ## Edits -/

/-- The new number of a line after `count` lines are inserted behind the first `place` lines. -/
def pushedDown (place count line : Nat) : Nat := if line ≤ place then line else line + count

/-- The new number of a line after `count` lines behind the first `place` lines are removed. -/
def pulledUp (place count line : Nat) : Nat := if line ≤ place then line else line - count

/-- An edit of a list of lines, with the function that maps old line numbers to new ones. -/
inductive LineEdit : List (List Char) → List (List Char) → (Nat → Nat) → Prop where
  /-- Inserts a blank line or a comment. -/
  | insert (before after) {raw} (h : isMeaningful raw = false) :
    LineEdit (before ++ after) (before ++ raw :: after) (pushedDown before.length 1)
  | remove (before after) {raw} (h : isMeaningful raw = false) :
    LineEdit (before ++ raw :: after) (before ++ after) (pulledUp before.length 1)
  /-- Adds white space around a line. -/
  | pad (before after raw) {left right} (hleft : ∀ c ∈ left, isBlank c = true)
    (hright : ∀ c ∈ right, isBlank c = true) :
    LineEdit (before ++ raw :: after) (before ++ (left ++ raw ++ right) :: after) id
  | unpad (before after raw) {left right} (hleft : ∀ c ∈ left, isBlank c = true)
    (hright : ∀ c ∈ right, isBlank c = true) :
    LineEdit (before ++ (left ++ raw ++ right) :: after) (before ++ raw :: after) id
  /-- Inserts a header of the section that is already open. -/
  | repeatHeader (before after) {header} (h : opens? header = some (areaAfter before)) :
    LineEdit (before ++ after) (before ++ header :: after) (pushedDown before.length 1)
  /-- Inserts a block of an unknown section before a header or at the end. -/
  | insertUnknown (before after) (b : Block) (harea : b.area = .unknown)
    (hafter : ∀ raw, after.head? = some raw → (opens? raw).isSome = true) :
    LineEdit (before ++ after) (before ++ (b.lines ++ after))
      (pushedDown before.length b.lines.length)

/-- Inserts a carriage return before each newline. -/
def withCarriageReturns (body : List Char) : List Char :=
  body.flatMap fun c => if c = '\n' then ['\r', '\n'] else [c]

/-- An edit of a text, with the function that maps old line numbers to new ones. -/
inductive LayoutEdit : List Char → List Char → (Nat → Nat) → Prop where
  | lines {body body' move} (h : LineEdit (pieces '\n' body) (pieces '\n' body') move) :
    LayoutEdit body body' move
  | carriageReturns (body) : LayoutEdit body (withCarriageReturns body) id
  | addFinalNewline (body) : LayoutEdit body (body ++ ['\n']) id
  | dropFinalNewline (body) : LayoutEdit (body ++ ['\n']) body id

/-- A sequence of edits. -/
inductive LayoutEdits : List Char → List Char → (Nat → Nat) → Prop where
  | none (body) : LayoutEdits body body id
  | next {body body' body'' move move'} (h : LayoutEdits body body' move)
    (e : LayoutEdit body' body'' move') : LayoutEdits body body'' (move' ∘ move)

/-- The diagnostic with a mapped line number. -/
def Diagnostic.moveBy (move : Nat → Nat) (d : Diagnostic) : Diagnostic :=
  { d with line := move d.line }

theorem pulledUp_pushedDown (place count line : Nat) :
    pulledUp place count (pushedDown place count line) = line := by
  unfold pulledUp pushedDown
  by_cases h : line ≤ place
  · rw [if_pos h, if_pos h]
  · rw [if_neg h, if_neg (by omega), Nat.add_sub_cancel]

theorem moveBy_moveBy (f g : Nat → Nat) (diagnostics : List Diagnostic) :
    (diagnostics.map (Diagnostic.moveBy f)).map (Diagnostic.moveBy g)
      = diagnostics.map (Diagnostic.moveBy (g ∘ f)) :=
  List.map_map

theorem map_moveBy_id {move : Nat → Nat} {diagnostics : List Diagnostic}
    (h : ∀ d ∈ diagnostics, move d.line = d.line) :
    diagnostics.map (Diagnostic.moveBy move) = diagnostics := by
  conv_rhs => rw [← List.map_id diagnostics]
  apply List.map_congr_left
  intro d hd
  show { d with line := move d.line } = d
  rw [h d hd]

/-- A header that opens the section that is already open is not the first header. -/
theorem areaAfter_ne_of_opens {before : List (List Char)} {header : List Char}
    (h : opens? header = some (areaAfter before)) : areaAfter before ≠ .preamble := by
  intro he
  exact Section.ofHeader?_ne_preamble (he ▸ h)

/-! ## Readers with shifted line numbers -/

namespace Reader

/-- The reader with `count` additional lines behind the first `place` lines. -/
def moved (place count : Nat) (r : Reader) : Reader :=
  { r with
    lineCount := r.lineCount + count
    diagnostics := r.diagnostics.map (Diagnostic.moveBy (pushedDown place count)) }

theorem lineCount_feed (r : Reader) (raw : List Char) :
    (r.feed raw).lineCount = r.lineCount + 1 := by
  rcases line_cases raw with hm | ⟨s, ho⟩ | hc
  · rw [feed_of_not_meaningful _ hm]
  · rw [feed_of_opens _ ho]
  · exact (feed_content_place _ hc).2.1

theorem report_moved (r : Reader) {place count : Nat} (h : place < r.lineCount) (fault : Fault) :
    (r.moved place count).report fault = (r.report fault).moved place count := by
  have hline : pushedDown place count r.lineCount = r.lineCount + count :=
    if_neg (Nat.not_le_of_lt h)
  simp only [report, moved, Array.map_push, Diagnostic.moveBy, hline]

theorem readContent_moved (r : Reader) {place count : Nat} (h : place < r.lineCount)
    (line : List Char) :
    (r.moved place count).readContent line = (r.readContent line).moved place count := by
  unfold readContent
  dsimp only [moved]
  cases (Statement.read r.area line).fault with
  | none => rfl
  | some fault =>
    exact report_moved { r with chart := r.chart.take (Statement.read r.area line) } h fault

theorem readFirst_moved (r : Reader) {place count : Nat} (h : place < r.lineCount)
    (line : List Char) :
    (r.moved place count).readFirst line = (r.readFirst line).moved place count := by
  unfold readFirst
  cases readVersion? line with
  | none => exact readContent_moved r h line
  | some version =>
    cases version with
    | ok version => rfl
    | error fault => exact report_moved r h fault

/-- Reading a line commutes with shifting line numbers. -/
theorem feed_moved {r : Reader} {place count : Nat} (h : place ≤ r.lineCount) (raw : List Char) :
    (r.moved place count).feed raw = (r.feed raw).moved place count := by
  have hcount : r.lineCount + count + 1 = r.lineCount + 1 + count := Nat.add_right_comm ..
  rcases line_cases raw with hm | ⟨s, ho⟩ | hc
  · rw [feed_of_not_meaningful _ hm, feed_of_not_meaningful _ hm]
    simp only [moved, hcount]
  · rw [feed_of_opens _ ho, feed_of_opens _ ho]
    simp only [moved, hcount]
  · rw [feed_of_content _ hc, feed_of_content _ hc]
    have hnext : ({ r.moved place count with
          lineCount := (r.moved place count).lineCount + 1, started := true } : Reader)
        = moved place count { r with lineCount := r.lineCount + 1, started := true } := by
      simp only [moved, hcount]
    have hstarted : (r.moved place count).started = r.started := rfl
    have hlt : place < r.lineCount + 1 := Nat.lt_succ_of_le h
    dsimp only
    rw [hnext, hstarted]
    cases r.started with
    | true =>
      exact readContent_moved { r with lineCount := r.lineCount + 1, started := true } hlt _
    | false =>
      exact readFirst_moved { r with lineCount := r.lineCount + 1, started := true } hlt _

theorem feedAll_moved {r : Reader} {place count : Nat} (h : place ≤ r.lineCount)
    (lines : List (List Char)) :
    (r.moved place count).feedAll lines = (r.feedAll lines).moved place count := by
  induction lines generalizing r with
  | nil => rfl
  | cons raw rest ih =>
    have hnext : place ≤ (r.feed raw).lineCount := by
      rw [lineCount_feed]
      exact Nat.le_succ_of_le h
    show ((r.moved place count).feed raw).feedAll rest = _
    rw [feed_moved h, ih hnext]
    rfl

theorem feedAll_append (r : Reader) (lines more : List (List Char)) :
    r.feedAll (lines ++ more) = (r.feedAll lines).feedAll more :=
  List.foldl_append

/-- Lines inserted after those read so far do not shift their numbers. -/
theorem moved_feedAll (before : List (List Char)) (count : Nat) :
    (feedAll {} before).moved before.length count
      = { feedAll {} before with lineCount := (feedAll {} before).lineCount + count } := by
  have hkeep : (feedAll {} before).diagnostics.map
      (Diagnostic.moveBy (pushedDown before.length count)) = (feedAll {} before).diagnostics := by
    apply Array.ext'
    rw [Array.toList_map, diagnostics_feedAll]
    apply map_moveBy_id
    intro d hd
    obtain ⟨k, raw, hraw, hgive⟩ := mem_eachInContext.mp hd
    obtain ⟨-, hline, -, -⟩ := diagnosticAfter_eq_some_iff.mp hgive
    obtain ⟨hlt, -⟩ := List.getElem?_eq_some_iff.mp hraw
    rw [List.length_take_of_le (Nat.le_of_lt hlt)] at hline
    exact if_pos (by omega)
  rw [moved, hkeep]

/-- A reader depends only on the trimmed lines. -/
theorem feedAll_congr_trim {lines lines' : List (List Char)}
    (h : lines.map trim = lines'.map trim) (r : Reader) : r.feedAll lines = r.feedAll lines' := by
  have hfeed : (fun (r : Reader) raw => r.feed (trim raw)) = feed := by
    funext r raw
    simp only [feed, trim_trim]
  have htrim : ∀ given : List (List Char), r.feedAll (given.map trim) = r.feedAll given := by
    intro given
    rw [feedAll, List.foldl_map, hfeed, ← feedAll]
  rw [← htrim lines, h, htrim]

/-- In an unknown section, lines only advance the line number. -/
theorem feedAll_unknown {r : Reader} (harea : r.area = .unknown) (hstarted : r.started = true)
    (lines : List (List Char)) (hlines : ∀ raw ∈ lines, opens? raw = none) :
    r.feedAll lines = { r with lineCount := r.lineCount + lines.length } := by
  induction lines using List.reverseRecOn with
  | nil => rfl
  | append_singleton lines raw ih =>
    rw [feedAll_concat, ih fun line hline => hlines line (List.mem_append_left _ hline),
      List.length_append, List.length_singleton, ← Nat.add_assoc]
    rcases line_cases raw with hm | ⟨s, ho⟩ | hc
    · rw [feed_of_not_meaningful _ hm]
    · rw [hlines raw (by simp)] at ho
      cases ho
    · rw [feed_of_content _ hc]
      dsimp only
      rw [if_pos hstarted, readContent_eq]
      simp [harea, hstarted, Statement.read, Reading.silent, Chart.take]

theorem feedAll_unknown_block (r : Reader) {b : Block} (harea : b.area = .unknown) :
    r.feedAll b.lines
      = { r with
          lineCount := r.lineCount + b.lines.length, area := .unknown, started := true } := by
  have ho : opens? b.header = some .unknown := harea ▸ b.opens
  show (r.feed b.header).feedAll b.body = _
  rw [feed_of_opens _ ho, feedAll_unknown rfl rfl b.body b.bodyOpens, Block.lines, List.length_cons]
  dsimp only
  rw [Nat.add_assoc, Nat.add_comm 1]

theorem feedAll_moved_behind (before after : List (List Char)) (count : Nat) :
    ((feedAll {} before).moved before.length count).feedAll after
      = (feedAll {} (before ++ after)).moved before.length count := by
  have hplace : before.length ≤ (feedAll {} before).lineCount :=
    Nat.le_of_eq (lineCount_feedAll before).symm
  rw [feedAll_moved hplace, ← feedAll_append]

/-- Inserting lines that only advance the line number at their position shifts the following lines
and has no other effect. -/
theorem feedAll_insert {before : List (List Char)} (between : List (List Char))
    (h : (feedAll {} before).feedAll between
      = { feedAll {} before with lineCount := (feedAll {} before).lineCount + between.length })
    (after : List (List Char)) :
    feedAll {} (before ++ (between ++ after))
      = (feedAll {} (before ++ after)).moved before.length between.length := by
  rw [feedAll_append, feedAll_append, h, ← moved_feedAll, feedAll_moved_behind]

theorem feedAll_insert_skipped (before after : List (List Char)) {raw : List Char}
    (h : isMeaningful raw = false) :
    feedAll {} (before ++ raw :: after) = (feedAll {} (before ++ after)).moved before.length 1 :=
  feedAll_insert [raw] (feed_of_not_meaningful _ h) after

theorem feedAll_repeat_header (before after : List (List Char)) {header : List Char}
    (h : opens? header = some (areaAfter before)) :
    feedAll {} (before ++ header :: after)
      = (feedAll {} (before ++ after)).moved before.length 1 := by
  have hstarted : (feedAll {} before).started = true := by
    rw [started_feedAll, any_of_areaAfter_ne (areaAfter_ne_of_opens h)]
  have hidle : (feedAll {} before).feed header
      = { feedAll {} before with lineCount := (feedAll {} before).lineCount + 1 } := by
    rw [← area_feedAll] at h
    rw [feed_of_opens _ h]
    generalize feedAll {} before = r at hstarted
    cases r
    cases hstarted
    rfl
  exact feedAll_insert [header] hidle after

/-- A block of an unknown section is followed by a header or the end of the file, so no other line
moves into its section. -/
theorem feedAll_insert_unknown (before after : List (List Char)) {b : Block}
    (harea : b.area = .unknown)
    (hafter : ∀ raw, after.head? = some raw → (opens? raw).isSome = true) :
    (feedAll {} (before ++ (b.lines ++ after))).chart = (feedAll {} (before ++ after)).chart
      ∧ (feedAll {} (before ++ (b.lines ++ after))).diagnostics
        = ((feedAll {} (before ++ after)).moved before.length b.lines.length).diagnostics := by
  have hmoved := moved_feedAll before b.lines.length
  cases after with
  | nil =>
    rw [List.append_nil, List.append_nil, feedAll_append, feedAll_unknown_block _ harea, hmoved]
    exact ⟨rfl, rfl⟩
  | cons header rest =>
    obtain ⟨s, ho⟩ := Option.isSome_iff_exists.mp (hafter header rfl)
    -- The header moves both readers to the same section, so they differ in the line count only.
    have hheader : ((feedAll {} before).feedAll b.lines).feed header
        = ((feedAll {} before).moved before.length b.lines.length).feed header := by
      rw [feedAll_unknown_block _ harea, hmoved, feed_of_opens _ ho, feed_of_opens _ ho]
    have hall : feedAll {} (before ++ (b.lines ++ header :: rest))
        = (feedAll {} (before ++ header :: rest)).moved before.length b.lines.length := by
      rw [feedAll_append, feedAll_append, ← feedAll_moved_behind]
      show (((feedAll {} before).feedAll b.lines).feed header).feedAll rest = _
      rw [hheader]
      rfl
    rw [hall]
    exact ⟨rfl, rfl⟩

end Reader

/-! ## Edits of lines -/

/-- The first meaningful line does not start with a byte-order mark, which would be removed if the
line became the first of the file. -/
def StartsClear (lines : List (List Char)) : Prop :=
  ∀ first, lines.find? isMeaningful = some first → (trim first).head? ≠ some '\ufeff'

/-- The second list of lines yields the same chart and diagnostics as the first, up to the line
numbers. -/
structure ReadsAs (lines lines' : List (List Char)) (move : Nat → Nat) : Prop where
  chart : (Reader.feedAll {} lines').chart = (Reader.feedAll {} lines).chart
  diagnostics : (Reader.feedAll {} lines').diagnostics.toList
    = (Reader.feedAll {} lines).diagnostics.toList.map (Diagnostic.moveBy move)
  clear : StartsClear lines → StartsClear lines'

namespace ReadsAs

theorem refl (lines : List (List Char)) : ReadsAs lines lines id where
  chart := rfl
  diagnostics := (map_moveBy_id fun _ _ => rfl).symm
  clear := id

theorem trans {lines lines' lines'' : List (List Char)} {move move' : Nat → Nat}
    (h : ReadsAs lines lines' move) (h' : ReadsAs lines' lines'' move') :
    ReadsAs lines lines'' (move' ∘ move) where
  chart := h'.chart.trans h.chart
  diagnostics := by rw [h'.diagnostics, h.diagnostics, moveBy_moveBy]
  clear hclear := h'.clear (h.clear hclear)

/-- The converse of an edit. -/
theorem symm {lines lines' : List (List Char)} {move back : Nat → Nat}
    (h : ReadsAs lines lines' move)
    (hback : ∀ line, back (move line) = line) (hclear : StartsClear lines' → StartsClear lines) :
    ReadsAs lines' lines back where
  chart := h.chart.symm
  diagnostics := by
    rw [h.diagnostics, moveBy_moveBy]
    exact (map_moveBy_id fun d _ => hback d.line).symm
  clear := hclear

theorem of_moved {lines lines' : List (List Char)} {place count : Nat}
    (h : Reader.feedAll {} lines' = (Reader.feedAll {} lines).moved place count)
    (hclear : StartsClear lines → StartsClear lines') :
    ReadsAs lines lines' (pushedDown place count) where
  chart := by rw [h]; rfl
  diagnostics := by rw [h]; exact Array.toList_map
  clear := hclear

/-- Lists of lines with the same trimmed lines read the same. -/
theorem of_trim {lines lines' : List (List Char)} (h : lines.map trim = lines'.map trim) :
    ReadsAs lines lines' id where
  chart := by rw [Reader.feedAll_congr_trim h]
  diagnostics := by
    rw [Reader.feedAll_congr_trim h]
    exact (map_moveBy_id fun _ _ => rfl).symm
  clear hclear first hfirst := by
    -- The first meaningful line is determined by the trimmed lines.
    have hfind : ∀ given : List (List Char),
        (given.map trim).find? isMeaningful = (given.find? isMeaningful).map trim := by
      intro given
      have hmeans : isMeaningful ∘ trim = isMeaningful := by
        funext raw
        simp only [Function.comp_apply, isMeaningful, trim_trim]
      rw [List.find?_map, hmeans]
    have hsame : (lines.find? isMeaningful).map trim = some (trim first) := by
      rw [← hfind, h, hfind, hfirst, Option.map_some]
    obtain ⟨raw, hraw, htrim⟩ := Option.map_eq_some_iff.mp hsame
    rw [← htrim]
    exact hclear raw hraw

end ReadsAs

theorem find?_insert_skipped (before after : List (List Char)) {raw : List Char}
    (h : isMeaningful raw = false) :
    (before ++ raw :: after).find? isMeaningful = (before ++ after).find? isMeaningful := by
  rw [List.find?_append, List.find?_append, List.find?_cons_of_neg (by simp [h])]

theorem readsAs_insert_skipped (before after : List (List Char)) {raw : List Char}
    (h : isMeaningful raw = false) :
    ReadsAs (before ++ after) (before ++ raw :: after) (pushedDown before.length 1) := by
  apply ReadsAs.of_moved (Reader.feedAll_insert_skipped before after h)
  intro hclear
  rwa [StartsClear, find?_insert_skipped before after h]

theorem readsAs_repeat_header (before after : List (List Char)) {header : List Char}
    (h : opens? header = some (areaAfter before)) :
    ReadsAs (before ++ after) (before ++ header :: after) (pushedDown before.length 1) := by
  apply ReadsAs.of_moved (Reader.feedAll_repeat_header before after h)
  intro hclear first hfirst
  -- The first meaningful line stands before the repeated header.
  obtain ⟨raw, hmem, hm⟩ := List.any_eq_true.mp (any_of_areaAfter_ne (areaAfter_ne_of_opens h))
  have hsome : (before.find? isMeaningful).isSome = true :=
    List.find?_isSome.mpr ⟨raw, hmem, hm⟩
  apply hclear first
  rw [List.find?_append, Option.or_of_isSome hsome] at hfirst ⊢
  exact hfirst

theorem readsAs_insert_unknown (before after : List (List Char)) {b : Block}
    (harea : b.area = .unknown)
    (hafter : ∀ raw, after.head? = some raw → (opens? raw).isSome = true) :
    ReadsAs (before ++ after) (before ++ (b.lines ++ after))
      (pushedDown before.length b.lines.length) := by
  obtain ⟨hchart, hdiagnostics⟩ := Reader.feedAll_insert_unknown before after harea hafter
  refine ⟨hchart, ?_, ?_⟩
  · rw [hdiagnostics]
    exact Array.toList_map
  · intro hclear first hfirst
    rw [List.find?_append] at hfirst
    cases hbefore : before.find? isMeaningful with
    | some raw =>
      apply hclear first
      rw [hbefore, Option.some_or] at hfirst
      rw [List.find?_append, hbefore, Option.some_or, hfirst]
    | none =>
      -- The header of the block has become the first meaningful line.
      have hm : isMeaningful b.header = true := isMeaningful_of_opens b.opens
      rw [hbefore, Option.none_or, Block.lines, List.cons_append, List.find?_cons_of_pos hm,
        Option.some.injEq] at hfirst
      rw [← hfirst, Section.head?_of_ofHeader? b.opens]
      decide

/-- An edit of lines preserves the chart and the diagnostics. -/
theorem LineEdit.readsAs {lines lines' : List (List Char)} {move : Nat → Nat}
    (h : LineEdit lines lines' move) : ReadsAs lines lines' move := by
  cases h with
  | insert before after h => exact readsAs_insert_skipped before after h
  | @remove before after raw h =>
    apply (readsAs_insert_skipped before after h).symm (pulledUp_pushedDown before.length 1)
    intro hclear
    rwa [StartsClear, find?_insert_skipped before after h] at hclear
  | pad before after raw hleft hright =>
    apply ReadsAs.of_trim
    simp only [List.map_append, List.map_cons, trim_pad hleft hright]
  | unpad before after raw hleft hright =>
    apply ReadsAs.of_trim
    simp only [List.map_append, List.map_cons, trim_pad hleft hright]
  | repeatHeader before after h => exact readsAs_repeat_header before after h
  | insertUnknown before after b harea hafter =>
    exact readsAs_insert_unknown before after harea hafter

/-! ## Edits of texts -/

/-- Each line is unchanged or followed by a carriage return. -/
theorem pieces_withCarriageReturns (body : List Char) :
    List.Forall₂ (fun line line' => line' = line ∨ line' = line ++ ['\r']) (pieces '\n' body)
      (pieces '\n' (withCarriageReturns body)) := by
  induction body with
  | nil => exact .cons (.inl rfl) .nil
  | cons c rest ih =>
    rw [withCarriageReturns, List.flatMap_cons, ← withCarriageReturns]
    by_cases hc : c = '\n'
    · subst hc
      rw [if_pos rfl, List.cons_append, List.singleton_append, pieces_cons_self,
        pieces_cons_of_ne (by decide), pieces_cons_self, List.modifyHead_cons]
      exact .cons (.inr rfl) ih
    · rw [if_neg hc, List.singleton_append, pieces_cons_of_ne hc, pieces_cons_of_ne hc]
      generalize pieces '\n' rest = lines at ih
      generalize pieces '\n' (withCarriageReturns rest) = lines' at ih
      cases ih with
      | nil => exact .nil
      | cons hline hlines =>
        rw [List.modifyHead_cons, List.modifyHead_cons]
        refine .cons ?_ hlines
        rcases hline with rfl | rfl
        · exact .inl rfl
        · exact .inr rfl

theorem map_trim_pieces_withCarriageReturns (body : List Char) :
    (pieces '\n' body).map trim = (pieces '\n' (withCarriageReturns body)).map trim := by
  have hreturn : ∀ c ∈ ['\r'], isBlank c = true := by
    intro c hc
    rw [List.mem_singleton.mp hc]
    decide
  have hlines := pieces_withCarriageReturns body
  generalize pieces '\n' body = lines at hlines ⊢
  generalize pieces '\n' (withCarriageReturns body) = lines' at hlines ⊢
  induction hlines with
  | nil => rfl
  | @cons line line' _ _ hline _ ih =>
    have htrim : trim line = trim line' := by
      rcases hline with rfl | rfl
      · rfl
      · exact (trim_pad (fun _ hc => absurd hc List.not_mem_nil) hreturn line).symm
    rw [List.map_cons, List.map_cons, ih, htrim]

theorem startsClear_final_blank {lines : List (List Char)} :
    StartsClear (lines ++ [[]]) ↔ StartsClear lines := by
  rw [StartsClear, find?_insert_skipped lines [] rfl, List.append_nil, ← StartsClear]

/-- A blank line at the end shifts no line numbers. -/
theorem readsAs_final_blank (lines : List (List Char)) : ReadsAs lines (lines ++ [[]]) id := by
  have hfeed : Reader.feedAll {} (lines ++ [[]])
      = { Reader.feedAll {} lines with lineCount := (Reader.feedAll {} lines).lineCount + 1 } := by
    rw [Reader.feedAll_concat]
    exact Reader.feed_of_not_meaningful _ rfl
  refine ⟨?_, ?_, startsClear_final_blank.mpr⟩
  · rw [hfeed]
  · rw [hfeed, map_moveBy_id fun _ _ => rfl]

/-- An edit of a text preserves the chart and the diagnostics. -/
theorem LayoutEdit.readsAs {body body' : List Char} {move : Nat → Nat}
    (h : LayoutEdit body body' move) : ReadsAs (pieces '\n' body) (pieces '\n' body') move := by
  cases h with
  | lines h => exact h.readsAs
  | carriageReturns => exact .of_trim (map_trim_pieces_withCarriageReturns body)
  | addFinalNewline =>
    rw [pieces_append, pieces_nil]
    exact readsAs_final_blank _
  | dropFinalNewline =>
    rw [pieces_append, pieces_nil]
    exact (readsAs_final_blank _).symm (fun _ => rfl) startsClear_final_blank.mp

/-- A sequence of edits preserves the chart and the diagnostics. -/
theorem LayoutEdits.readsAs {body body' : List Char} {move : Nat → Nat}
    (h : LayoutEdits body body' move) : ReadsAs (pieces '\n' body) (pieces '\n' body') move := by
  induction h with
  | none => exact .refl _
  | next _ e ih => exact ih.trans e.readsAs

/-- A text with an optional byte-order mark in front. -/
def markedText (marked : Bool) (body : List Char) : String :=
  String.ofList (if marked then '\ufeff' :: body else body)

theorem linesOf_markedText {marked : Bool} {body : List Char}
    (h : marked = false → body.head? ≠ some '\ufeff') :
    linesOf (markedText marked body).toList = pieces '\n' body := by
  rw [markedText, String.toList_ofList]
  cases marked with
  | true => rfl
  | false =>
    rw [if_neg Bool.false_ne_true]
    exact linesOf_eq_pieces (h rfl)

/-- A text without byte-order marks starts without one. -/
theorem startsClear_of_not_mem {body : List Char} (h : '\ufeff' ∉ body) :
    StartsClear (pieces '\n' body) := by
  intro first hfirst hhead
  apply h
  rw [← join_pieces '\n' body]
  exact mem_join_of_mem (List.mem_of_find?_eq_some hfirst)
    (mem_of_mem_trim (List.mem_of_mem_head? hhead))

theorem head?_ne_of_startsClear {body : List Char} (h : StartsClear (pieces '\n' body)) :
    body.head? ≠ some '\ufeff' := by
  intro hhead
  obtain ⟨rest, rfl⟩ := List.head?_eq_some_iff.mp hhead
  obtain ⟨p, ps, hp⟩ := List.exists_cons_of_ne_nil (pieces_ne_nil '\n' rest)
  -- The mark is not white space, so a line that starts with it is meaningful.
  have htrim : (trim ('\ufeff' :: p)).head? = some '\ufeff' := head?_trim_cons (by decide) p
  have hm : isMeaningful ('\ufeff' :: p) = true := by
    obtain ⟨tail, ht⟩ := List.head?_eq_some_iff.mp htrim
    rw [isMeaningful, ht]
    rfl
  apply h ('\ufeff' :: p) _ htrim
  rw [pieces_cons_of_ne (by decide), hp, List.modifyHead_cons, List.find?_cons_of_pos hm]

theorem ReadsAs.parse {body body' : List Char} {move : Nat → Nat}
    (h : ReadsAs (pieces '\n' body) (pieces '\n' body') move) (marked : Bool)
    (hclear : marked = false → StartsClear (pieces '\n' body)) :
    (Chart.parse (markedText marked body')).1 = (Chart.parse (markedText marked body)).1
      ∧ (Chart.parse (markedText marked body')).2
        = (Chart.parse (markedText marked body)).2.map (Diagnostic.moveBy move) := by
  have hbody : linesOf (markedText marked body).toList = pieces '\n' body :=
    linesOf_markedText fun hm => head?_ne_of_startsClear (hclear hm)
  have hbody' : linesOf (markedText marked body').toList = pieces '\n' body' :=
    linesOf_markedText fun hm => head?_ne_of_startsClear (h.clear (hclear hm))
  rw [Chart.parse, Chart.parse, hbody, hbody']
  exact ⟨congrArg Chart.withMetrics h.chart, h.diagnostics⟩

/-- **Layout edits preserve the chart.** Edits of a text without byte-order marks, except for one in
front, preserve its chart and its diagnostics, whose line numbers are mapped by the edits. Changing
line endings shifts no line numbers. -/
theorem parse_layoutEdits (marked : Bool) {body body' : List Char} {move : Nat → Nat}
    (hmark : '\ufeff' ∉ body) (h : LayoutEdits body body' move) :
    (Chart.parse (markedText marked body')).1 = (Chart.parse (markedText marked body)).1
      ∧ (Chart.parse (markedText marked body')).2
        = (Chart.parse (markedText marked body)).2.map (Diagnostic.moveBy move)
      ∧ Chart.parse (markedText marked (withCarriageReturns body))
        = Chart.parse (markedText marked body) := by
  have hclear : marked = false → StartsClear (pieces '\n' body) :=
    fun _ => startsClear_of_not_mem hmark
  obtain ⟨hchart, hdiagnostics⟩ := h.readsAs.parse marked hclear
  refine ⟨hchart, hdiagnostics, ?_⟩
  obtain ⟨hsame, hkept⟩ := (LayoutEdit.carriageReturns body).readsAs.parse marked hclear
  rw [map_moveBy_id fun _ _ => rfl] at hkept
  exact Prod.ext hsame hkept

/-- A sequence of three edits: removing a comment, inserting a block of an unknown section, and
changing all line endings. -/
theorem parse_layoutEdits_of_three_edits :
    let body := "// c\nosu v9\n[General]\nMode: x".toList
    let body' := withCarriageReturns "osu v9\n[Mania]\nKeys: 4\n[General]\nMode: x".toList
    let move := id ∘ pushedDown 1 2 ∘ pulledUp 0 1 ∘ id
    '\ufeff' ∉ body ∧ LayoutEdits body body' move
      ∧ (Chart.parse (markedText true body')).1 = (Chart.parse (markedText true body)).1
      ∧ (Chart.parse (markedText true body')).2
        = (Chart.parse (markedText true body)).2.map (Diagnostic.moveBy move)
      ∧ Chart.parse (markedText true (withCarriageReturns body))
        = Chart.parse (markedText true body) := by
  intro body body' move
  let mania : Block :=
    ⟨"[Mania]".toList, ["Keys: 4".toList], .unknown, by decide, by decide⟩
  have hcomment : isMeaningful "// c".toList = false := by decide
  have hremove : LineEdit (pieces '\n' body)
      (pieces '\n' "osu v9\n[General]\nMode: x".toList) (pulledUp 0 1) :=
    .remove [] ["osu v9".toList, "[General]".toList, "Mode: x".toList] hcomment
  have hinsert : LineEdit (pieces '\n' "osu v9\n[General]\nMode: x".toList)
      (pieces '\n' "osu v9\n[Mania]\nKeys: 4\n[General]\nMode: x".toList) (pushedDown 1 2) :=
    .insertUnknown ["osu v9".toList] ["[General]".toList, "Mode: x".toList] mania rfl <| by
      intro raw hraw
      cases hraw
      decide
  have hedits : LayoutEdits body body' move :=
    .next (.next (.next (.none _) (.lines hremove)) (.lines hinsert)) (.carriageReturns _)
  have hmark : '\ufeff' ∉ body := by decide
  exact ⟨hmark, hedits, parse_layoutEdits true hmark hedits⟩

end Beatmap
