import Beatmap.Proofs.Columns
import Beatmap.Proofs.Records

/-!
# Hit objects and their lines

A hit object is determined by its line (`IsSaidBy`): five integers and the text after the fifth
comma, which is split at its last comma into the parameters and the sample. The parameters may
contain commas, so joining the two parts gives the text back. Conversely, a hit object that is
printed as a line is read back from it (`value_read_line`), provided that its sample contains no
comma and does not end with a blank. Empty texts may be omitted from the line.
-/

namespace Beatmap

open Beatmap.Text Beatmap.Number

/-! ## The text after the fifth comma -/

/-- Dropping pieces is splitting the text after the corresponding separators. -/
theorem drop_pieces {sep : Char} {head tail : List Char} {n : Nat} (h : head.count sep = n) :
    (pieces sep (head ++ sep :: tail)).drop (n + 1) = pieces sep tail := by
  rw [pieces_append]
  exact List.drop_left' (by rw [length_pieces, h])

/-- A text is split at its last separator into the joined pieces before it and the last piece. -/
theorem join_dropLast_pieces {sep : Char} {text : List Char} (h : sep ∈ text) :
    text = join sep (pieces sep text).dropLast ++ sep :: (pieces sep text).getLastD [] := by
  have hlong : 1 < (pieces sep text).length := by
    have hcount := List.count_pos_iff.mpr h
    rw [length_pieces]
    omega
  obtain ⟨init, last, hpieces⟩ := List.eq_nil_or_concat'
    (pieces sep text) |>.resolve_left (pieces_ne_nil sep text)
  have hinit : init ≠ [] := by
    rintro rfl
    rw [hpieces] at hlong
    simp at hlong
  have hlast : join sep [last] = last := by simp [join]
  have htext : text = join sep init ++ sep :: last := by
    rw [← hlast, ← join_append sep hinit (by simp), ← hpieces, join_pieces]
  rw [hpieces, List.dropLast_concat, List.getLastD_concat]
  exact htext

theorem not_mem_getLastD {sep : Char} {parts : List (List Char)} (h : ∀ part ∈ parts, sep ∉ part) :
    sep ∉ parts.getLastD [] := by
  rw [List.getLastD_eq_getLast?]
  cases hl : parts.getLast? with
  | none => simp
  | some last => exact h last (List.mem_of_mem_getLast? hl)

namespace HitObject

/-! ## Parsing a line -/

/-- The components of the hit object are those stated by the line: the integers are its first five
fields, and the texts are those after the fifth comma. -/
structure IsSaidBy (o : HitObject) (line : List Char) : Prop where
  x : (field? line 0).bind readInt32 = some o.x
  y : (field? line 1).bind readInt32 = some o.y
  offset : (field? line 2).bind readInt32 = some o.offset
  type : (field? line 3).bind readInt32 = some o.type
  hitSound : (field? line 4).bind readInt32 = some o.hitSound
  bare : line.count ',' = 4 → o.extraParams = "" ∧ o.hitSample = ""
  /-- Without a sixth comma, the text after the fifth is the sample. -/
  lone : ∀ head tail, line = head ++ ',' :: tail → head.count ',' = 4 → ',' ∉ tail
    → o.extraParams = "" ∧ o.hitSample.toList = tail
  parted : ∀ head tail, line = head ++ ',' :: tail → head.count ',' = 4 → ',' ∈ tail
    → tail = o.extraParams.toList ++ ',' :: o.hitSample.toList
  sample : ',' ∉ o.hitSample.toList

/-- The hit object of a line in terms of its fields and the pieces after the fifth comma. -/
theorem value_read_eq_some_iff {line : List Char} {o : HitObject} :
    (HitObject.read line).value = some o
      ↔ (field? line 0).bind readInt32 = some o.x ∧ (field? line 1).bind readInt32 = some o.y
        ∧ (field? line 2).bind readInt32 = some o.offset
        ∧ (field? line 3).bind readInt32 = some o.type
        ∧ (field? line 4).bind readInt32 = some o.hitSound
        ∧ o.extraParams = String.ofList (join ',' ((pieces ',' line).drop 5).dropLast)
        ∧ o.hitSample = String.ofList (((pieces ',' line).drop 5).getLastD []) := by
  unfold HitObject.read field?
  generalize pieces ',' line = fields
  match fields with
  | x :: y :: offset :: type :: hitSound :: tail =>
    have hvalue : (Reading.ofExcept (ofFields x y offset type hitSound tail)).value = some o
        ↔ ofFields x y offset type hitSound tail = .ok o := by
      cases ofFields x y offset type hitSound tail <;>
        simp [Reading.ofExcept, Reading.refused, Reading.accepted]
    exact hvalue.trans ofFields_eq_ok_iff
  -- With fewer than five fields, the fifth one is missing.
  | [] | [_] | [_, _] | [_, _, _] | [_, _, _, _] => simp [Reading.refused]

theorem isSaidBy_of_read {line : List Char} {o : HitObject}
    (h : (HitObject.read line).value = some o) : o.IsSaidBy line := by
  obtain ⟨hx, hy, hoffset, htype, hsound, hextra, hsample⟩ := value_read_eq_some_iff.mp h
  refine ⟨hx, hy, hoffset, htype, hsound, ?_, ?_, ?_, ?_⟩
  · intro hcount
    have hnone : (pieces ',' line).drop 5 = [] :=
      List.drop_eq_nil_of_le (by rw [length_pieces, hcount])
    rw [hextra, hsample, hnone]
    exact ⟨rfl, rfl⟩
  · intro head tail hline hcount hcomma
    rw [hextra, hsample, hline, drop_pieces hcount, pieces_eq_singleton hcomma]
    exact ⟨rfl, String.toList_ofList⟩
  · intro head tail hline hcount hcomma
    rw [hextra, hsample, hline, drop_pieces hcount, String.toList_ofList, String.toList_ofList]
    exact join_dropLast_pieces hcomma
  · rw [hsample, String.toList_ofList]
    exact not_mem_getLastD fun part hpart => not_mem_of_mem_pieces (List.mem_of_mem_drop hpart)

/-- A line yields a hit object exactly if it has four commas and its first five fields are integers.
-/
theorem isSome_read_iff (line : List Char) :
    (HitObject.read line).value.isSome = true
      ↔ 4 ≤ line.count ',' ∧ ∀ n < 5, ((field? line n).bind readInt32).isSome = true := by
  constructor
  · intro h
    obtain ⟨o, ho⟩ := Option.isSome_iff_exists.mp h
    obtain ⟨hx, hy, hoffset, htype, hsound, -, -⟩ := value_read_eq_some_iff.mp ho
    constructor
    · -- The fifth field is there.
      have hfifth : field? line 4 ≠ none := by
        intro hnone
        rw [hnone] at hsound
        cases hsound
      rw [field?, ne_eq, Option.map_eq_none_iff, List.getElem?_eq_none_iff, length_pieces] at hfifth
      omega
    · intro n hn
      rcases n with _ | _ | _ | _ | _ | n
      · rw [hx]; rfl
      · rw [hy]; rfl
      · rw [hoffset]; rfl
      · rw [htype]; rfl
      · rw [hsound]; rfl
      · omega
  · rintro ⟨-, h⟩
    obtain ⟨x, hx⟩ := Option.isSome_iff_exists.mp (h 0 (by omega))
    obtain ⟨y, hy⟩ := Option.isSome_iff_exists.mp (h 1 (by omega))
    obtain ⟨offset, hoffset⟩ := Option.isSome_iff_exists.mp (h 2 (by omega))
    obtain ⟨type, htype⟩ := Option.isSome_iff_exists.mp (h 3 (by omega))
    obtain ⟨hitSound, hsound⟩ := Option.isSome_iff_exists.mp (h 4 (by omega))
    have hread : (HitObject.read line).value = some ⟨x, y, offset, type, hitSound, _, _⟩ :=
      value_read_eq_some_iff.mpr ⟨hx, hy, hoffset, htype, hsound, rfl, rfl⟩
    rw [hread]
    rfl

/-! ## Printing an object -/

/-- The five integers in decimal representation. -/
def numbers (o : HitObject) : List (List Char) :=
  [writeInt32 o.x, writeInt32 o.y, writeInt32 o.offset, writeInt32 o.type, writeInt32 o.hitSound]

/-- The texts that may follow the integers. Empty parameters may be omitted, and so may both texts
if both are empty. -/
inductive HasTexts (o : HitObject) : List (List Char) → Prop
  | none (hextra : o.extraParams = "") (hsample : o.hitSample = "") : HasTexts o []
  | sample (hextra : o.extraParams = "") : HasTexts o [o.hitSample.toList]
  | both : HasTexts o [o.extraParams.toList, o.hitSample.toList]

/-- The line of an object. -/
def line (o : HitObject) (texts : List (List Char)) : List Char := join ',' (o.numbers ++ texts)

theorem exists_of_mem_numbers {o : HitObject} {text : List Char} (h : text ∈ o.numbers) :
    ∃ n, text = writeInt32 n := by
  simp only [numbers, List.mem_cons, List.not_mem_nil, or_false] at h
  rcases h with rfl | rfl | rfl | rfl | rfl <;> exact ⟨_, rfl⟩

variable {o : HitObject} {texts : List (List Char)}

/-- The pieces of a printed line. -/
theorem pieces_line (o : HitObject) (texts : List (List Char)) :
    pieces ',' (o.line texts)
      = o.numbers ++ if texts = [] then [] else pieces ',' (join ',' texts) := by
  have hcomma : ∀ text ∈ o.numbers, ',' ∉ text := by
    intro text ht
    obtain ⟨n, rfl⟩ := exists_of_mem_numbers ht
    exact not_mem_writeInt32 (by decide) (by decide) n
  have hnumbers : pieces ',' (join ',' o.numbers) = o.numbers :=
    pieces_join (by simp [numbers]) hcomma
  by_cases ht : texts = []
  · rw [if_pos ht, ht, line, List.append_nil, hnumbers]
  · rw [if_neg ht, line, join_append ',' (by simp [numbers]) ht, pieces_append, hnumbers]

/-- The integer fields of a printed line. -/
theorem field?_line (o : HitObject) (texts : List (List Char)) :
    (field? (o.line texts) 0).bind readInt32 = some o.x
      ∧ (field? (o.line texts) 1).bind readInt32 = some o.y
      ∧ (field? (o.line texts) 2).bind readInt32 = some o.offset
      ∧ (field? (o.line texts) 3).bind readInt32 = some o.type
      ∧ (field? (o.line texts) 4).bind readInt32 = some o.hitSound := by
  have hread : ∀ n, readInt32 (trim (writeInt32 n)) = some n := by
    intro n
    rw [trim_writeInt32, readInt32_writeInt32]
  simp only [field?, pieces_line, numbers, List.cons_append, List.getElem?_cons_zero,
    List.getElem?_cons_succ, Option.map_some, Option.bind_some, hread, and_self]

/-- The texts recovered from the pieces of a printed line. -/
theorem texts_line (h : o.HasTexts texts) (hcomma : ',' ∉ o.hitSample.toList) :
    join ',' ((pieces ',' (o.line texts)).drop 5).dropLast = o.extraParams.toList
      ∧ ((pieces ',' (o.line texts)).drop 5).getLastD [] = o.hitSample.toList := by
  have hdrop : (pieces ',' (o.line texts)).drop 5
      = if texts = [] then [] else pieces ',' (join ',' texts) := by
    rw [pieces_line]
    exact List.drop_left' rfl
  rw [hdrop]
  cases h with
  | none hextra hsample =>
    rw [hextra, hsample]
    exact ⟨rfl, rfl⟩
  | sample hextra =>
    have hjoin : join ',' [o.hitSample.toList] = o.hitSample.toList := by simp [join]
    rw [if_neg (by simp), hjoin, pieces_eq_singleton hcomma, hextra]
    exact ⟨rfl, rfl⟩
  | both =>
    have hjoin : join ',' [o.extraParams.toList, o.hitSample.toList]
        = o.extraParams.toList ++ ',' :: o.hitSample.toList := by simp [join]
    rw [if_neg (by simp), hjoin, pieces_append, pieces_eq_singleton hcomma, List.dropLast_concat,
      List.getLastD_concat, join_pieces]
    exact ⟨rfl, rfl⟩

/-- A printed hit object is read back from its line. -/
theorem value_read_line (h : o.HasTexts texts) (hcomma : ',' ∉ o.hitSample.toList) :
    HitObject.read (o.line texts) = .accepted o := by
  obtain ⟨hx, hy, hoffset, htype, hsound⟩ := field?_line o texts
  obtain ⟨hextra, hsample⟩ := texts_line h hcomma
  have hvalue : (HitObject.read (o.line texts)).value = some o := by
    rw [value_read_eq_some_iff]
    refine ⟨hx, hy, hoffset, htype, hsound, ?_, ?_⟩
    · rw [hextra, String.ofList_toList]
    · rw [hsample, String.ofList_toList]
  have hfault : (HitObject.read (o.line texts)).fault = none := by
    rw [← Option.not_isSome_iff_eq_none, fault_isSome_iff]
    rintro ⟨n, hn, hbad⟩
    have hsome := ((isSome_read_iff _).mp (by rw [hvalue]; rfl)).2 n hn
    rw [hbad] at hsome
    cases hsome
  cases hread : HitObject.read (o.line texts) with
  | mk value fault =>
    rw [hread] at hvalue hfault
    rw [Reading.accepted, ← hvalue, ← hfault]

/-- The characters of a printed line are those of integers, commas, and its texts. -/
theorem not_mem_line {c : Char} (h : o.HasTexts texts) (hcomma : c ≠ ',') (hsign : c ≠ '-')
    (hdigit : isDigit c = false) (hextra : c ∉ o.extraParams.toList)
    (hsample : c ∉ o.hitSample.toList) : c ∉ o.line texts := by
  apply not_mem_join hcomma
  intro part hpart
  rcases List.mem_append.mp hpart with hnumber | htext
  · obtain ⟨n, rfl⟩ := exists_of_mem_numbers hnumber
    exact not_mem_writeInt32 hsign hdigit n
  · cases h with
    | none => cases htext
    | sample => exact List.mem_singleton.mp htext ▸ hsample
    | both =>
      rcases List.mem_cons.mp htext with rfl | htext
      · exact hextra
      · exact List.mem_singleton.mp htext ▸ hsample

/-- A printed line starts with a digit or a minus sign. -/
theorem head?_line (o : HitObject) (texts : List (List Char)) :
    ∃ c, (o.line texts).head? = some c ∧ c ∈ writeInt32 o.x := by
  obtain ⟨c, rest, hx⟩ := List.exists_cons_of_ne_nil (writeInt32_ne_nil o.x)
  have hhead : (writeInt32 o.x).head? = some c := by rw [hx, List.head?_cons]
  exact ⟨c, head?_join_cons hhead _, hx ▸ List.mem_cons_self ..⟩

theorem isContent_line (o : HitObject) (texts : List (List Char)) :
    isContent (o.line texts) = true := by
  obtain ⟨c, hhead, hc⟩ := head?_line o texts
  refine isContent_of_head? hhead (isBlank_of_mem_writeInt32 hc) ?_ ?_
  · rintro rfl
    exact not_mem_writeInt32 (by decide) (by decide) _ hc
  · rintro rfl
    exact not_mem_writeInt32 (by decide) (by decide) _ hc

/-- A printed line is unchanged by `trim`, unless the sample ends with a blank. -/
theorem trim_line (h : o.HasTexts texts)
    (hend : ∀ c, o.hitSample.toList.getLast? = some c → isBlank c = false) :
    trim (o.line texts) = o.line texts := by
  have hstart : ∀ c, (o.line texts).head? = some c → isBlank c = false := by
    intro c hc
    obtain ⟨d, hd, hmem⟩ := head?_line o texts
    rw [hd, Option.some.injEq] at hc
    exact hc ▸ isBlank_of_mem_writeInt32 hmem
  cases h with
  | none hextra hsample =>
    refine trim_join_concat (by decide) o.numbers.dropLast hstart ?_
    intro c hc
    exact isBlank_of_mem_writeInt32 (List.mem_of_mem_getLast? hc)
  | sample hextra => exact trim_join_concat (by decide) o.numbers hstart hend
  | both =>
    exact trim_join_concat (by decide) (o.numbers ++ [o.extraParams.toList])
      (by simpa [line] using hstart) hend

end HitObject

/-! ## Lines of a file -/

theorem hitObjects_feed {before : List (List Char)} {raw : List Char}
    (h : areaAfter before = .hitObjects) (hc : isContent raw = true) :
    ((Reader.feedAll {} before).feed raw).chart.hitObjects.toList
      = (Reader.feedAll {} before).chart.hitObjects.toList
        ++ (HitObject.read (trim raw)).value.toList :=
  RecordPart.hitObjects.recordsOf_feed h hc

/-- **Hit objects.** In the section of hit objects, a line of content appends exactly one object if
it has four commas and its first five fields are integers, and none otherwise; the object is the one
stated by the line. A hit object that is printed as a line is read back without a diagnostic. -/
theorem hitObject_lines {before : List (List Char)}
    (h : (Reader.feedAll {} before).area = .hitObjects) :
    (∀ raw, isContent raw = true → ∃ decoded : Option HitObject,
        ((Reader.feedAll {} before).feed raw).chart.hitObjects.toList
            = (Reader.feedAll {} before).chart.hitObjects.toList ++ decoded.toList
          ∧ (decoded.isSome = true ↔ 4 ≤ (trim raw).count ','
            ∧ ∀ n < 5, ((field? (trim raw) n).bind readInt32).isSome = true)
          ∧ ∀ o, decoded = some o → o.IsSaidBy (trim raw))
      ∧ ∀ (o : HitObject) (texts : List (List Char)), o.HasTexts texts → ',' ∉ o.hitSample.toList →
          (∀ c, o.hitSample.toList.getLast? = some c → isBlank c = false) →
          ((Reader.feedAll {} before).feed (o.line texts)).chart.hitObjects.toList
              = (Reader.feedAll {} before).chart.hitObjects.toList ++ [o]
            ∧ ((Reader.feedAll {} before).feed (o.line texts)).diagnostics.toList
              = (Reader.feedAll {} before).diagnostics.toList
            ∧ ('\n' ∉ o.extraParams.toList → '\n' ∉ o.hitSample.toList →
              ∀ text : String, linesOf text.toList = before →
                (Chart.parse (text ++ "\n" ++ String.ofList (o.line texts))).1.hitObjects.toList
                  = (Chart.parse text).1.hitObjects.toList ++ [o]) := by
  have harea : areaAfter before = .hitObjects := Reader.area_feedAll before ▸ h
  refine ⟨?_, ?_⟩
  · intro raw hc
    exact ⟨(HitObject.read (trim raw)).value, hitObjects_feed harea hc,
      HitObject.isSome_read_iff (trim raw), fun o ho => HitObject.isSaidBy_of_read ho⟩
  · intro o texts ht hcomma hend
    have hc := HitObject.isContent_line o texts
    have hread : HitObject.read (trim (o.line texts)) = .accepted o := by
      rw [HitObject.trim_line ht hend, HitObject.value_read_line ht hcomma]
    have hfeed : ((Reader.feedAll {} before).feed (o.line texts)).chart.hitObjects.toList
        = (Reader.feedAll {} before).chart.hitObjects.toList ++ [o] := by
      rw [hitObjects_feed harea hc, hread, Reading.accepted, Option.toList_some]
    refine ⟨hfeed, ?_, ?_⟩
    · have hstarted : before.any isMeaningful = true :=
        any_of_areaAfter_ne (by rw [harea]; decide)
      have hfault : ∀ line, (Statement.read .hitObjects line).fault = (HitObject.read line).fault :=
        fun _ => rfl
      rw [Reader.diagnostics_feed hc hstarted, harea, hfault, hread, Reading.accepted,
        Option.map_none, Option.toList_none, List.append_nil]
    · intro hextra hsample text hlines
      have hline : linesOf (text ++ "\n" ++ String.ofList (o.line texts)).toList
          = before ++ [o.line texts] := by
        have hnewline : '\n' ∉ o.line texts :=
          HitObject.not_mem_line ht (by decide) (by decide) (by decide) hextra hsample
        have hcut : (text ++ "\n" ++ String.ofList (o.line texts)).toList
            = text.toList ++ '\n' :: o.line texts := by simp
        rw [hcut, linesOf_append, pieces_eq_singleton hnewline, hlines]
      simp only [Chart.parse, Chart.ofLines, Reader.finish, Chart.withMetrics, hline, hlines,
        Reader.feedAll_concat]
      exact hfeed

/-- A slider whose parameters have commas and end with one. -/
def slider : HitObject := ⟨256, -192, 1000, 6, 0, "B|1:2,2,", "0:0:0:0:"⟩

theorem hitObject_lines_of_slider :
    let r := Reader.feedAll {} ["[HitObjects]".toList]
    r.area = .hitObjects
      ∧ isContent "1, 2 ,3,4,5,6".toList = true
      ∧ (r.feed "1, 2 ,3,4,5,6".toList).chart.hitObjects.size = 1
      ∧ (r.feed (slider.line
          [slider.extraParams.toList, slider.hitSample.toList])).chart.hitObjects.toList
        = [slider] := by
  intro r
  have harea : r.area = .hitObjects := by decide +kernel
  have hcontent : isContent "1, 2 ,3,4,5,6".toList = true := by decide +kernel
  have hempty : r.chart.hitObjects.toList = [] := by decide +kernel
  have hlast : slider.hitSample.toList.getLast? = some ':' := by decide +kernel
  have hend : ∀ c, slider.hitSample.toList.getLast? = some c → isBlank c = false := by
    intro c hc
    rw [hlast, Option.some.injEq] at hc
    subst hc
    decide
  obtain ⟨hread, hwritten⟩ := hitObject_lines harea
  obtain ⟨decoded, hfeed, hiff, -⟩ := hread _ hcontent
  obtain ⟨o, rfl⟩ := Option.isSome_iff_exists.mp (hiff.mpr (by decide +kernel))
  have hslider := (hwritten slider _ .both (by decide +kernel) hend).1
  rw [hempty] at hfeed hslider
  refine ⟨harea, hcontent, ?_, hslider⟩
  rw [← Array.length_toList, hfeed]
  rfl

end Beatmap
