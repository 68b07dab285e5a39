import Beatmap.Proofs.Columns
import Beatmap.Proofs.Records

/-!
# Timing points and their lines

A line of timing points consists of two required and six optional fields. This module characterises
the result without reference to the parser: a point is added exactly if the first two fields are a
finite offset and a beat length (`isSome_read_iff`), each optional field determines one component of
the point (`IsSaidBy`), and the diagnostic lists the optional fields that are present and malformed
(`AreUnreadable`). Replacing missing and malformed fields by their defaults (`completed`) yields the
same point without a diagnostic (`read_completed`).
-/

namespace Beatmap

open Beatmap.Text Beatmap.Number

/-! ## First characters of numbers -/

theorem readNat_of_mem {text : List Char} {c : Char} (h : c ∈ text) (hdigit : isDigit c = false) :
    readNat text = none := by
  have hall : text.all isDigit = false := by
    rw [List.all_eq_false]
    exact ⟨c, h, by simp [hdigit]⟩
  rw [readNat, hall]
  simp

theorem readPointed_of_mem {text : List Char} {c : Char} (h : c ∈ text) (hdigit : isDigit c = false)
    (hpoint : c ≠ '.') : readPointed text = none := by
  unfold readPointed
  cases hcut : cutFirst '.' text with
  | none => simp [readNat_of_mem h hdigit]
  | some sides =>
    obtain ⟨whole, fraction⟩ := sides
    obtain ⟨htext, -⟩ := eq_of_cutFirst hcut
    have hmem : c ∈ whole ++ fraction := by
      rw [htext, List.mem_append, List.mem_cons] at h
      rcases h with hwhole | heq | hfraction
      · exact List.mem_append_left _ hwhole
      · exact absurd heq hpoint
      · exact List.mem_append_right _ hfraction
    simp [readNat_of_mem hmem hdigit]

/-- A floating-point number starts with a sign, a digit, a point, or the first letter of `inf` or
`nan`. -/
theorem readFloating_cons_eq_none {f : Format} {c : Char} (hminus : c ≠ '-') (hplus : c ≠ '+')
    (hword : lowerAscii c ≠ 'i' ∧ lowerAscii c ≠ 'n') (hmark : isExponentMark c = false)
    (hdigit : isDigit c = false) (hpoint : c ≠ '.') (rest : List Char) :
    readFloating f (c :: rest) = none := by
  have hsign : readSign (c :: rest) = (false, c :: rest) := by
    unfold readSign
    split
    next he => exact absurd (List.cons.inj he).1 hminus
    next he => exact absurd (List.cons.inj he).1 hplus
    next => rfl
  have hdecimal : readUnsigned false (c :: rest) = none := by
    have hpointed : readPointed ((c :: rest).takeWhile (!isExponentMark ·)) = none := by
      rw [List.takeWhile_cons_of_pos (by rw [hmark]; rfl)]
      exact readPointed_of_mem (List.mem_cons_self ..) hdigit hpoint
    rw [readUnsigned, hpointed]
    rfl
  have hspelt : ∀ word : List Char, word.head? = some 'i' ∨ word.head? = some 'n'
      → lowerAsciiText (c :: rest) ≠ word := by
    rintro word hhead rfl
    rcases hhead with hi | hn
    · exact hword.1 (Option.some.inj hi)
    · exact hword.2 (Option.some.inj hn)
  rw [readFloating, hsign]
  dsimp only
  rw [if_neg, if_neg (hspelt _ (Or.inr rfl)), hdecimal]
  · rfl
  · rintro (hshort | hlong)
    · exact hspelt _ (Or.inl rfl) hshort
    · exact hspelt _ (Or.inl rfl) hlong

/-- A floating-point number starts neither with a slash nor with a bracket. -/
theorem head?_of_readFloating {f : Format} {text : List Char} {x : Floating f}
    (h : readFloating f text = some x) : ∃ c, text.head? = some c ∧ c ≠ '/' ∧ c ≠ '[' := by
  cases text with
  | nil => cases h
  | cons c rest =>
    refine ⟨c, rfl, ?_, ?_⟩
    · rintro rfl
      rw [readFloating_cons_eq_none (by decide) (by decide) (by decide) rfl rfl (by decide)] at h
      cases h
    · rintro rfl
      rw [readFloating_cons_eq_none (by decide) (by decide) (by decide) rfl rfl (by decide)] at h
      cases h

/-- A line whose first field is a floating-point number is content. -/
theorem isContent_of_readFloating {f : Format} {raw : List Char} {x : Floating f}
    (h : (field? raw 0).bind (readFloating f) = some x) : isContent raw = true := by
  obtain ⟨first, rest, hpieces⟩ := List.exists_cons_of_ne_nil (pieces_ne_nil ',' (trim raw))
  have hfirst : readFloating f (trim first) = some x := by
    rwa [← field?_trim, field?, hpieces, List.getElem?_cons_zero, Option.map_some,
      Option.bind_some] at h
  obtain ⟨c, hc, hslash, hbracket⟩ := head?_of_readFloating hfirst
  cases hd : first with
  | nil =>
    rw [hd] at hc
    cases hc
  | cons d tail =>
    have hhead : (trim raw).head? = some d := by
      rw [← join_pieces ',' (trim raw), hpieces, hd]
      exact head?_join_cons rfl rest
    have hblank : isBlank d = false := head?_trim hhead
    rw [hd, head?_trim_cons hblank, Option.some.injEq] at hc
    subst hc
    have hcontent := isContent_of_head? hhead hblank hslash hbracket
    rwa [isContent, isMeaningful, opens?, trim_trim] at hcontent

/-! ## Parsing a line -/

/-- The first two fields are a finite offset and a beat length. -/
def AreOfPoint (line : List Char) (offset beatLength : Double) : Prop :=
  (field? line 0).bind (readFloating .double) = some offset ∧ offset.isFinite = true
    ∧ (field? line 1).bind (readFloating .double) = some beatLength

/-- The integer of an optional field, or the default. -/
def integerOr (default : Int32) (line : List Char) (n : Nat) : Int32 :=
  ((field? line n).bind readInt32).getD default

namespace TimingPoint

/-- The components of the point are those stated by the fields of the line. -/
structure IsSaidBy (p : TimingPoint) (line : List Char) : Prop where
  start : ∃ offset, AreOfPoint line offset p.beatLength ∧ p.offset = clampInt32 offset.truncate
  meter : p.meter = integerOr 4 line 2
  sampleSet : p.sampleSet = integerOr 0 line 3
  sampleIndex : p.sampleIndex = integerOr 0 line 4
  volume : p.volume = integerOr 100 line 5
  uninherited : p.uninherited = true ↔ integerOr 1 line 6 = 1
  effects : p.effects = integerOr 0 line 7

/-- `fields` lists the optional fields that are present and malformed, in the order of the line. -/
structure AreUnreadable (line : List Char) (fields : List (TimingField × String)) : Prop where
  mem_iff : ∀ field text, (field, text) ∈ fields ↔ ∃ written,
    field? line (field.index + 2) = some written ∧ readInt32 written = none
      ∧ text = String.ofList written
  ordered : fields.Pairwise fun a b => a.1.index < b.1.index

/-- The fields after the beat length. -/
def further (line : List Char) : List (List Char) := ((pieces ',' line).map trim).drop 2

theorem written?_further (field : TimingField) (line : List Char) :
    field.written? (further line) = field? line (field.index + 2) := by
  rw [TimingField.written?, further, List.getElem?_drop, List.getElem?_map, field?, Nat.add_comm]

theorem number_further (field : TimingField) (line : List Char) :
    field.number (further line) = integerOr field.default line (field.index + 2) := by
  rw [TimingField.number, written?_further, integerOr]

theorem rejected?_further_eq_some_iff {field : TimingField} {line : List Char}
    {rejected : TimingField × String} :
    field.rejected? (further line) = some rejected ↔ ∃ written,
      field? line (field.index + 2) = some written ∧ readInt32 written = none
        ∧ rejected = (field, String.ofList written) := by
  rw [TimingField.rejected?, written?_further]
  cases field? line (field.index + 2) with
  | none => simp
  | some written => cases hread : readInt32 written <;> simp [hread, eq_comm]

/-- The malformed optional fields of a line. -/
def rejected (line : List Char) : List (TimingField × String) :=
  TimingField.all.filterMap (·.rejected? (further line))

theorem areUnreadable_rejected (line : List Char) : AreUnreadable line (rejected line) where
  mem_iff field text := by
    simp only [rejected, List.mem_filterMap, rejected?_further_eq_some_iff, Prod.mk.injEq]
    constructor
    · rintro ⟨other, -, written, hfield, hread, rfl, rfl⟩
      exact ⟨written, hfield, hread, rfl⟩
    · rintro ⟨written, hfield, hread, rfl⟩
      have hmem : field ∈ TimingField.all := List.mem_of_getElem? field.all_getElem?
      exact ⟨field, hmem, written, hfield, hread, rfl, rfl⟩
  ordered := by
    have hall : TimingField.all.Pairwise fun a b => a.index < b.index := by decide
    refine hall.filterMap _ ?_
    intro a b hab x hx y hy
    obtain ⟨-, -, -, rfl⟩ := rejected?_further_eq_some_iff.mp hx
    obtain ⟨-, -, -, rfl⟩ := rejected?_further_eq_some_iff.mp hy
    exact hab

theorem readOffset_eq_some_iff {text : List Char} {n : Int32} :
    readOffset text = some n ↔ ∃ offset, readFloating .double text = some offset
      ∧ offset.isFinite = true ∧ n = clampInt32 offset.truncate := by
  unfold readOffset
  cases readFloating .double text with
  | none => simp
  | some offset =>
    cases hfinite : offset.isFinite with
    | false => simp [hfinite]
    | true =>
      simp only [hfinite, if_true, Option.some.injEq, exists_eq_left', true_and]
      exact eq_comm

/-- The result of reading a line with a valid offset and beat length. -/
theorem read_of_start {line : List Char} {offset beatLength : Double}
    (h : AreOfPoint line offset beatLength) :
    TimingPoint.read line
      = ⟨some (ofFields (clampInt32 offset.truncate) beatLength (further line)),
        if rejected line = [] then none else some (.unreadableTimingFields (rejected line))⟩ := by
  obtain ⟨hoffset, hfinite, hbeat⟩ := h
  have hfault : furtherFault (further line)
      = if rejected line = [] then none else some (.unreadableTimingFields (rejected line)) := by
    rw [furtherFault, ← rejected]
    cases rejected line <;> rfl
  rw [← hfault]
  rw [field?, ← List.getElem?_map] at hoffset hbeat
  unfold TimingPoint.read further
  generalize (pieces ',' line).map trim = columns at hoffset hbeat ⊢
  rcases columns with _ | ⟨first, _ | ⟨second, rest⟩⟩
  · cases hoffset
  · cases hbeat
  · rw [List.getElem?_cons_zero, Option.bind_some] at hoffset
    rw [List.getElem?_cons_succ, List.getElem?_cons_zero, Option.bind_some] at hbeat
    have hread : readOffset first = some (clampInt32 offset.truncate) :=
      readOffset_eq_some_iff.mpr ⟨offset, hoffset, hfinite, rfl⟩
    simp only [hread, hbeat]
    rfl

/-- A line yields a timing point exactly if its first two fields are a finite offset and a beat
length. -/
theorem isSome_read_iff (line : List Char) :
    (TimingPoint.read line).value.isSome = true
      ↔ ∃ offset beatLength, AreOfPoint line offset beatLength := by
  constructor
  · intro h
    simp only [AreOfPoint, field?, ← List.getElem?_map]
    unfold TimingPoint.read at h
    generalize (pieces ',' line).map trim = columns at h ⊢
    rcases columns with _ | ⟨first, _ | ⟨second, rest⟩⟩
    · cases h
    · cases h
    · rw [List.getElem?_cons_zero, List.getElem?_cons_succ, List.getElem?_cons_zero,
        Option.bind_some, Option.bind_some]
      cases hoffset : readOffset first with
      | none =>
        simp only [hoffset] at h
        cases h
      | some n =>
        cases hbeat : readFloating .double second with
        | none =>
          simp only [hoffset, hbeat] at h
          cases h
        | some beatLength =>
          obtain ⟨offset, hread, hfinite, -⟩ := readOffset_eq_some_iff.mp hoffset
          exact ⟨offset, beatLength, hread, hfinite, rfl⟩
  · rintro ⟨offset, beatLength, hstart⟩
    rw [read_of_start hstart]
    rfl

theorem isSaidBy_of_read {line : List Char} {p : TimingPoint}
    (h : (TimingPoint.read line).value = some p) : p.IsSaidBy line := by
  obtain ⟨offset, beatLength, hstart⟩ := (isSome_read_iff line).mp (by rw [h]; rfl)
  rw [read_of_start hstart, Option.some.injEq] at h
  subst h
  refine ⟨⟨offset, hstart, rfl⟩, ?_, ?_, ?_, ?_, ?_, ?_⟩
  · exact number_further .meter line
  · exact number_further .sampleSet line
  · exact number_further .sampleIndex line
  · exact number_further .volume line
  · rw [← show TimingField.uninherited.number (further line) = integerOr 1 line 6 from
      number_further .uninherited line]
    exact beq_iff_eq
  · exact number_further .effects line

/-- A line without a valid offset and beat length yields a fault. -/
theorem isSome_fault_of_not {line : List Char} (h : (TimingPoint.read line).value = none) :
    (TimingPoint.read line).fault.isSome = true := by
  rw [fault_isSome_iff]
  refine Or.inl fun hstart => ?_
  have hsome := (isSome_read_iff line).mpr hstart
  rw [h] at hsome
  cases hsome

/-- Fields after the eighth are ignored. -/
theorem read_congr {line other : List Char} (h : ∀ n < 8, field? other n = field? line n)
    {offset beatLength : Double} (hstart : AreOfPoint line offset beatLength) :
    TimingPoint.read other = TimingPoint.read line := by
  have hother : AreOfPoint other offset beatLength := by
    rw [AreOfPoint, h 0 (by omega), h 1 (by omega)]
    exact hstart
  have hwritten : ∀ field : TimingField,
      field.written? (further other) = field.written? (further line) := by
    intro field
    rw [written?_further, written?_further, h]
    cases field <;> decide
  have hnumber : ∀ field : TimingField,
      field.number (further other) = field.number (further line) := by
    intro field
    rw [TimingField.number, hwritten, TimingField.number]
  have hrejected : rejected other = rejected line := by
    refine List.filterMap_congr fun field _ => ?_
    rw [TimingField.rejected?, hwritten, TimingField.rejected?]
  rw [read_of_start hother, read_of_start hstart, hrejected]
  simp only [ofFields, hnumber]

/-! ## Explicit defaults -/

/-- The text of an optional field, or its default if it is missing or malformed. -/
def explicit (line : List Char) (field : TimingField) : List Char :=
  match (pieces ',' line)[field.index + 2]? with
  | some written =>
    if (readInt32 (trim written)).isSome then written else writeInt32 field.default
  | none => writeInt32 field.default

/-- The line with defaults in place of missing and malformed fields. -/
def completed (line : List Char) : List Char :=
  join ',' ((pieces ',' line).take 2 ++ TimingField.all.map (explicit line)
    ++ (pieces ',' line).drop 8)

example : completed "0,400, 3 ,x,,70.5".toList = "0,400, 3 ,0,0,100,1,0".toList := by decide +kernel

theorem not_mem_explicit (line : List Char) (field : TimingField) : ',' ∉ explicit line field := by
  have hdefault : ',' ∉ writeInt32 field.default := not_mem_writeInt32 (by decide) (by decide) _
  unfold explicit
  split
  next written hwritten =>
    split
    next => exact not_mem_of_mem_pieces (List.mem_of_getElem? hwritten)
    next => exact hdefault
  next => exact hdefault

/-- An explicit field reads as the value of the field. -/
theorem readInt32_explicit (line : List Char) (field : TimingField) :
    readInt32 (trim (explicit line field))
      = some (integerOr field.default line (field.index + 2)) := by
  have hdefault : readInt32 (trim (writeInt32 field.default)) = some field.default := by
    rw [trim_writeInt32, readInt32_writeInt32]
  unfold explicit integerOr field?
  cases (pieces ',' line)[field.index + 2]? with
  | none => exact hdefault
  | some written =>
    rw [Option.map_some, Option.bind_some]
    dsimp only
    cases hread : readInt32 (trim written) with
    | none => exact hdefault
    | some n =>
      rw [Option.isSome_some, if_pos rfl]
      exact hread

theorem pieces_completed (line : List Char) :
    pieces ',' (completed line)
      = (pieces ',' line).take 2 ++ TimingField.all.map (explicit line)
        ++ (pieces ',' line).drop 8 := by
  refine pieces_join (by simp [TimingField.all]) ?_
  intro part hpart
  rcases List.mem_append.mp hpart with hpart | hdrop
  · rcases List.mem_append.mp hpart with htake | hexplicit
    · exact not_mem_of_mem_pieces (List.mem_of_mem_take htake)
    · obtain ⟨field, -, rfl⟩ := List.mem_map.mp hexplicit
      exact not_mem_explicit line field
  · exact not_mem_of_mem_pieces (List.mem_of_mem_drop hdrop)

theorem length_take_two {line : List Char} {offset beatLength : Double}
    (h : AreOfPoint line offset beatLength) : ((pieces ',' line).take 2).length = 2 := by
  have hsecond : field? line 1 ≠ none := by
    intro hnone
    have hbeat := h.2.2
    rw [hnone] at hbeat
    cases hbeat
  rw [field?, ne_eq, Option.map_eq_none_iff, List.getElem?_eq_none_iff] at hsecond
  rw [List.length_take]
  omega

theorem field?_completed_of_lt {line : List Char} {offset beatLength : Double}
    (h : AreOfPoint line offset beatLength) {n : Nat} (hn : n < 2) :
    field? (completed line) n = field? line n := by
  have hlength := length_take_two h
  rw [field?, field?, pieces_completed, List.append_assoc, List.getElem?_append_left (by omega),
    List.getElem?_take_of_lt hn]

theorem field?_completed_further {line : List Char} {offset beatLength : Double}
    (h : AreOfPoint line offset beatLength) (field : TimingField) :
    field? (completed line) (field.index + 2) = some (trim (explicit line field)) := by
  have hlength := length_take_two h
  have hindex : field.index < TimingField.all.length := by cases field <;> decide
  rw [field?, pieces_completed, List.append_assoc, List.getElem?_append_right (by omega), hlength,
    Nat.add_sub_cancel, List.getElem?_append_left (by rwa [List.length_map]), List.getElem?_map,
    field.all_getElem?, Option.map_some, Option.map_some]

theorem areOfPoint_completed {line : List Char} {offset beatLength : Double}
    (h : AreOfPoint line offset beatLength) : AreOfPoint (completed line) offset beatLength := by
  rw [AreOfPoint, field?_completed_of_lt h (by omega), field?_completed_of_lt h (by omega)]
  exact h

/-- The completed line yields the same point without a fault. -/
theorem read_completed {line : List Char} {offset beatLength : Double}
    (h : AreOfPoint line offset beatLength) :
    TimingPoint.read (completed line) = ⟨(TimingPoint.read line).value, none⟩ := by
  have hnumber : ∀ field : TimingField,
      field.number (further (completed line)) = field.number (further line) := by
    intro field
    rw [number_further, number_further, integerOr, field?_completed_further h, Option.bind_some,
      readInt32_explicit, Option.getD_some]
  have hrejected : rejected (completed line) = [] := by
    refine List.filterMap_eq_nil_iff.mpr fun field _ => ?_
    rw [TimingField.rejected?, written?_further, field?_completed_further h]
    simp [readInt32_explicit]
  rw [read_of_start (areOfPoint_completed h), read_of_start h, hrejected, if_pos rfl]
  simp only [ofFields, hnumber]

theorem isContent_completed {line : List Char} {offset beatLength : Double}
    (h : AreOfPoint line offset beatLength) : isContent (completed line) = true :=
  isContent_of_readFloating (areOfPoint_completed h).1

end TimingPoint

/-! ## Lines of a file -/

/-- The effect of a line on the timing points and the diagnostics of a file: at most one point and
at most one fault. -/
structure AddsPoint (before : List (List Char)) (raw : List Char) (point : Option TimingPoint)
    (complaint : Option Fault) : Prop where
  points : ((Reader.feedAll {} before).feed raw).chart.timingPoints.toList
    = (Reader.feedAll {} before).chart.timingPoints.toList ++ point.toList
  diagnostics : ((Reader.feedAll {} before).feed raw).diagnostics.toList
    = (Reader.feedAll {} before).diagnostics.toList
      ++ (complaint.map fun fault => ⟨before.length + 1, .timingPoints, fault⟩).toList

theorem addsPoint_read {before : List (List Char)} {raw : List Char}
    (h : areaAfter before = .timingPoints) (hc : isContent raw = true) :
    AddsPoint before raw (TimingPoint.read (trim raw)).value
      (TimingPoint.read (trim raw)).fault where
  points := RecordPart.timingPoints.recordsOf_feed h hc
  diagnostics := by
    have hfault : ∀ line,
        (Statement.read .timingPoints line).fault = (TimingPoint.read line).fault := fun _ => rfl
    rw [Reader.diagnostics_feed hc (any_of_areaAfter_ne (by rw [h]; decide)), h, hfault]

/-- **Timing points.** In the section of timing points, a line of content adds a point if its first
two fields are a finite offset and a beat length, and only a diagnostic otherwise. Each further
component of the point is determined by its own field, the diagnostic names exactly the malformed
optional fields, and fields after the eighth are ignored. The line with explicit defaults adds the
same point without a diagnostic. -/
theorem timingPoint_lines {before : List (List Char)} {raw : List Char}
    (h : (Reader.feedAll {} before).area = .timingPoints) (hc : isContent raw = true) :
    ∃ (point : Option TimingPoint) (complaint : Option Fault),
      AddsPoint before raw point complaint
        ∧ (point.isSome = true ↔ 1 ≤ (trim raw).count ','
          ∧ ∃ offset beatLength, AreOfPoint (trim raw) offset beatLength)
        ∧ (point = none → complaint.isSome = true)
        ∧ ∀ p, point = some p →
          p.IsSaidBy (trim raw)
            ∧ (∃ fields, TimingPoint.AreUnreadable (trim raw) fields
              ∧ complaint = if fields = [] then none else some (.unreadableTimingFields fields))
            ∧ (∀ other, isContent other = true →
              (∀ n < 8, field? (trim other) n = field? (trim raw) n) →
              AddsPoint before other (some p) complaint)
            ∧ AddsPoint before (TimingPoint.completed (trim raw)) (some p) none := by
  have harea : areaAfter before = .timingPoints := Reader.area_feedAll before ▸ h
  refine ⟨_, _, addsPoint_read harea hc, ?_, TimingPoint.isSome_fault_of_not, ?_⟩
  · rw [TimingPoint.isSome_read_iff]
    constructor
    · rintro ⟨offset, beatLength, hstart⟩
      have hlength := TimingPoint.length_take_two hstart
      rw [List.length_take, length_pieces] at hlength
      exact ⟨by omega, offset, beatLength, hstart⟩
    · exact And.right
  · intro p hp
    obtain ⟨offset, beatLength, hstart⟩ :=
      (TimingPoint.isSome_read_iff _).mp (by rw [hp]; rfl)
    refine ⟨TimingPoint.isSaidBy_of_read hp, ?_, ?_, ?_⟩
    · refine ⟨_, TimingPoint.areUnreadable_rejected (trim raw), ?_⟩
      rw [TimingPoint.read_of_start hstart]
    · intro other ho hagree
      have hadds := addsPoint_read harea ho
      rwa [TimingPoint.read_congr hagree hstart, hp] at hadds
    · have hadds := addsPoint_read harea
        (TimingPoint.isContent_completed hstart)
      have hread := TimingPoint.read_congr (fun n _ => field?_trim _ n)
        (TimingPoint.areOfPoint_completed hstart)
      rwa [hread, TimingPoint.read_completed hstart, hp] at hadds

theorem timingPoint_lines_of_two_bad_fields :
    let r := Reader.feedAll {} ["[TimingPoints]".toList]
    let raw := "0,400,x,1,0,loud,1,0".toList
    r.area = .timingPoints ∧ isContent raw = true
      ∧ (r.feed raw).chart.timingPoints.toList.length = 1
      ∧ (r.feed (TimingPoint.completed (trim raw))).diagnostics.toList = [] := by
  intro r raw
  have harea : r.area = .timingPoints := by decide +kernel
  have hcontent : isContent raw = true := by decide +kernel
  obtain ⟨point, complaint, hadds, hiff, -, haccepted⟩ := timingPoint_lines harea hcontent
  obtain ⟨p, rfl⟩ := Option.isSome_iff_exists.mp (hiff.mpr ⟨by decide +kernel,
    Decimal.toFloating .double ⟨false, 0, 0⟩, Decimal.toFloating .double ⟨false, 400, 0⟩,
    by decide +kernel, by decide +kernel, by decide +kernel⟩)
  obtain ⟨-, -, -, hcompleted⟩ := haccepted p rfl
  have hempty : r.chart.timingPoints.toList = [] := by decide +kernel
  have hquiet : r.diagnostics.toList = [] := by decide +kernel
  refine ⟨harea, hcontent, ?_, ?_⟩
  · rw [hadds.points, hempty]
    rfl
  · rw [hcompleted.diagnostics, hquiet]
    rfl

end Beatmap
