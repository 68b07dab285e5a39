import Beatmap.Chart.Places
import Beatmap.Proofs.Fields

/-!
# Indexed accesses are in range

Each test on a line implies that the following accesses are in range. For tests on the number of
pieces this is arithmetic. A background is recognised by a prefix with two commas, which implies
that there is a third piece (`pieces_of_background`).

Reading with indexed accesses therefore agrees with reading by pattern matching (`Event.readAt_eq`,
`TimingPoint.readAt_eq`, `HitObject.readAt_eq`), and the reader with indexed accesses never fails.
-/

namespace Beatmap

open Beatmap.Text Beatmap.Number

/-! ## Accesses in range -/

section

variable {fields : List (List Char)}

theorem exists_pieceAt_iff {place : Nat} :
    (∃ piece, pieceAt fields place = .ok piece) ↔ place < fields.length := by
  unfold pieceAt
  by_cases h : place < fields.length
  · rw [List.getElem?_eq_getElem h]
    exact iff_of_true ⟨_, rfl⟩ h
  · rw [List.getElem?_eq_none (by omega)]
    exact iff_of_false (fun ⟨_, hpiece⟩ => nomatch hpiece) h

/-- A break without an end has no third piece. -/
example : pieceAt (pieces ',' "2,500".toList) 2 = .error (.piece 2 2) := rfl

theorem exists_sliceAt_iff {first last : Nat} :
    (∃ parts, sliceAt fields first last = .ok parts) ↔ first ≤ last ∧ last ≤ fields.length := by
  unfold sliceAt
  split
  next h => exact iff_of_true ⟨_, rfl⟩ h
  next h => exact iff_of_false (fun ⟨_, hparts⟩ => nomatch hparts) h

theorem lastPlace_eq (h : 0 < fields.length) : lastPlace fields = .ok (fields.length - 1) := by
  unfold lastPlace
  split
  next hlength => omega
  next last hlength => rw [hlength]; rfl

end

/-- The accesses that follow each test on a line are in range. -/
structure InRange (line : List Char) : Prop where
  /-- A line with the prefix of a background has a third piece. -/
  background : "0,0,".toList <+: line → ∃ piece, pieceAt (pieces ',' line) 2 = .ok piece
  /-- A break with at least three pieces has a second and a third. -/
  pause : "2,".toList <+: line → ¬(pieces ',' line).length < 3 → ∀ place, place = 1 ∨ place = 2
    → ∃ piece, pieceAt (pieces ',' line) place = .ok piece
  /-- A timing point with at least two fields has a first and a second. -/
  timingPoint : ¬((pieces ',' line).map trim).length < 2 → ∀ place < 2,
    ∃ piece, pieceAt ((pieces ',' line).map trim) place = .ok piece
  /-- A hit object with at least five pieces has the first five. -/
  hitObject : ¬(pieces ',' line).length < 5 → ∀ place < 5,
    ∃ piece, pieceAt (pieces ',' line) place = .ok piece
  /-- More than five pieces have a last one. -/
  sample : 5 < (pieces ',' line).length → ∃ last piece, lastPlace (pieces ',' line) = .ok last
    ∧ pieceAt (pieces ',' line) last = .ok piece
  /-- With more than six pieces, the slice from the sixth to the last is in range. -/
  params : 6 < (pieces ',' line).length → ∃ last parts, lastPlace (pieces ',' line) = .ok last
    ∧ 5 ≤ last ∧ sliceAt (pieces ',' line) 5 last = .ok parts

theorem inRange (line : List Char) : InRange line where
  background hstarts := by
    obtain ⟨rest, hpieces⟩ := pieces_of_background (List.isPrefixOf_iff_prefix.mpr hstarts)
    rw [exists_pieceAt_iff, hpieces]
    exact Nat.succ_lt_succ (Nat.succ_lt_succ (Nat.succ_pos rest.length))
  pause _ hlength place hplace := exists_pieceAt_iff.mpr (by omega)
  timingPoint hlength place hplace := exists_pieceAt_iff.mpr (by omega)
  hitObject hlength place hplace := exists_pieceAt_iff.mpr (by omega)
  sample hlength := by
    obtain ⟨piece, hpiece⟩ := exists_pieceAt_iff.mpr (Nat.sub_one_lt_of_lt hlength)
    exact ⟨_, piece, lastPlace_eq (Nat.zero_lt_of_lt hlength), hpiece⟩
  params hlength := by
    have hlast : 5 ≤ (pieces ',' line).length - 1 := by omega
    obtain ⟨parts, hparts⟩ := exists_sliceAt_iff.mpr ⟨hlast, Nat.sub_le _ 1⟩
    exact ⟨_, parts, lastPlace_eq (Nat.zero_lt_of_lt hlength), hlast, hparts⟩

/-! ## Lines -/

theorem Event.readAt_eq (line : List Char) : Event.readAt line = .ok (Event.read line) := by
  unfold Event.readAt
  by_cases hbackground : "0,0,".toList.isPrefixOf line = true
  · obtain ⟨rest, hpieces⟩ := pieces_of_background hbackground
    rw [if_pos hbackground, Event.read, hpieces]
    rfl
  rw [if_neg hbackground]
  by_cases hpause : "2,".toList.isPrefixOf line = true
  · obtain ⟨second, more, hpieces⟩ : ∃ q ps, pieces ',' line = ['2'] :: q :: ps :=
      (isPrefix_iff_pieces (by decide)).mp (List.isPrefixOf_iff_prefix.mp hpause)
    rw [if_pos hpause, Event.read, hpieces]
    cases more with
    | nil => rfl
    | cons third rest =>
      have hcount : ¬(['2'] :: second :: third :: rest).length < 3 := by simp
      simp only [if_neg hcount, pieceAt, List.getElem?_cons_succ, List.getElem?_cons_zero, bind,
        Except.bind]
      cases readInt32 (trim second) with
      | none => rfl
      | some start =>
        cases readInt32 (trim third) with
        | none => rfl
        | some stop => rfl
  · rw [if_neg hpause]
    -- Neither prefix matches, so the line is skipped by both.
    have hnone : ¬∃ q ps, pieces ',' line = ['2'] :: q :: ps := by
      rw [← isPrefix_iff_pieces (by decide)]
      exact fun h => hpause (List.isPrefixOf_iff_prefix.mpr h)
    unfold Event.read
    split
    next hpieces => exact absurd (background_of_pieces hpieces) hbackground
    next hpieces => exact absurd ⟨_, _, hpieces⟩ hnone
    next hpieces => exact absurd ⟨_, _, hpieces⟩ hnone
    next => rfl

theorem TimingPoint.readAt_eq (line : List Char) :
    TimingPoint.readAt line = .ok (TimingPoint.read line) := by
  unfold TimingPoint.readAt TimingPoint.read
  rcases (pieces ',' line).map trim with - | ⟨first, - | ⟨second, further⟩⟩
  · rfl
  · rfl
  · have hcount : ¬(first :: second :: further).length < 2 := by simp
    simp only [if_neg hcount, pieceAt, List.getElem?_cons_succ, List.getElem?_cons_zero, bind,
      Except.bind]
    cases readOffset first with
    | none => rfl
    | some offset =>
      cases readFloating .double second with
      | none => rfl
      | some beatLength => rfl

namespace HitObject

variable (x y offset type hitSound : List Char) (tail : List (List Char))

theorem numberAt_eq {fields : List (List Char)} {place : Nat} {text : List Char} (field : HitField)
    (h : fields[place]? = some text) :
    numberAt fields field place = ExceptT.mk (.ok (readField field text)) := by
  unfold numberAt pieceAt
  rw [h]
  rfl

/-- The tail of a hit object consists of the slice before the last piece and the last piece. -/
theorem tailAt_eq : tailAt (x :: y :: offset :: type :: hitSound :: tail)
    = .ok (join ',' tail.dropLast, tail.getLastD []) := by
  rcases tail with - | ⟨first, - | ⟨second, rest⟩⟩
  · rfl
  · rfl
  have hlast : lastPlace (x :: y :: offset :: type :: hitSound :: first :: second :: rest)
      = .ok (rest.length + 6) := rfl
  have hparams : sliceAt (x :: y :: offset :: type :: hitSound :: first :: second :: rest) 5
      (rest.length + 6) = .ok (first :: second :: rest).dropLast := by
    rw [sliceAt, if_pos (by simp), List.dropLast_eq_take]
    rfl
  have hsample : pieceAt (x :: y :: offset :: type :: hitSound :: first :: second :: rest)
      (rest.length + 6) = .ok ((first :: second :: rest).getLastD []) := by
    have hget : (x :: y :: offset :: type :: hitSound :: first :: second :: rest)[rest.length + 6]?
        = some ((first :: second :: rest).getLastD []) := by
      rw [List.getLastD_eq_getLast?, List.getLast?_eq_getElem?]
      simp
    rw [pieceAt, hget]
  have hmore : 6 < (x :: y :: offset :: type :: hitSound :: first :: second :: rest).length := by
    simp
  unfold tailAt
  simp only [hlast, bind, Except.bind, if_pos hmore, if_pos (Nat.lt_of_succ_lt hmore),
    hparams, hsample]
  rfl

theorem ofFieldsAt_eq : (ofFieldsAt (x :: y :: offset :: type :: hitSound :: tail)).run
    = .ok (ofFields x y offset type hitSound tail) := by
  unfold ofFieldsAt ofFields
  rw [numberAt_eq .x rfl, numberAt_eq .y rfl, numberAt_eq .offset rfl, numberAt_eq .kind rfl,
    numberAt_eq .hitSound rfl, tailAt_eq]
  -- The first integer that cannot be parsed determines the fault.
  cases readField .x x
  · rfl
  cases readField .y y
  · rfl
  cases readField .offset offset
  · rfl
  cases readField .kind type
  · rfl
  cases readField .hitSound hitSound
  · rfl
  rfl

theorem readAt_eq (line : List Char) : readAt line = .ok (read line) := by
  unfold readAt read
  rcases pieces ',' line with - | ⟨x, - | ⟨y, - | ⟨offset, - | ⟨type, - | ⟨hitSound, tail⟩⟩⟩⟩⟩
  · rfl
  · rfl
  · rfl
  · rfl
  · rfl
  have hcount : ¬(x :: y :: offset :: type :: hitSound :: tail).length < 5 := by simp
  rw [if_neg hcount, ofFieldsAt_eq]
  rfl

end HitObject

theorem Statement.readAt_eq (area : Section) (line : List Char) :
    Statement.readAt area line = .ok (Statement.read area line) := by
  unfold Statement.readAt
  split
  next => rw [Event.readAt_eq]; rfl
  next => rw [TimingPoint.readAt_eq]; rfl
  next => rw [HitObject.readAt_eq]; rfl
  next => rfl

/-! ## Runs of the reader -/

namespace Reader

variable (r : Reader)

theorem readContentAt_eq (line : List Char) : r.readContentAt line = .ok (r.readContent line) := by
  unfold readContentAt readContent
  rw [Statement.readAt_eq]
  simp only [bind, Except.bind]
  cases (Statement.read r.area line).fault with
  | none => rfl
  | some fault => rfl

theorem readFirstAt_eq (line : List Char) : r.readFirstAt line = .ok (r.readFirst line) := by
  unfold readFirstAt readFirst
  cases readVersion? line with
  | none => exact r.readContentAt_eq line
  | some version =>
    cases version with
    | ok version => rfl
    | error fault => rfl

theorem feedAt_eq (raw : List Char) : r.feedAt raw = .ok (r.feed raw) := by
  unfold feedAt feed
  dsimp only
  cases LineKind.of (trim raw) with
  | skipped => rfl
  | header opened => rfl
  | content =>
    cases r.started with
    | true => exact readContentAt_eq _ _
    | false => exact readFirstAt_eq _ _

end Reader

theorem Chart.parseAt_eq (text : String) : Chart.parseAt text = .ok (Chart.parse text) := by
  have hfeed : Reader.feedAt = fun r raw => pure (r.feed raw) := by
    funext r raw
    exact r.feedAt_eq raw
  rw [Chart.parseAt, hfeed, List.foldlM_pure]
  rfl

/-- **Indexed accesses are in range.** In every state of the reader, reading a line with indexed
accesses succeeds and agrees with `feed`; consequently every text is parsed to its end. -/
theorem pieces_inRange :
    (∀ line, InRange line)
    ∧ (∀ (r : Reader) (raw : List Char), r.feedAt raw = .ok (r.feed raw))
    ∧ ∀ text : String, Chart.parseAt text = .ok (Chart.parse text) :=
  ⟨inRange, Reader.feedAt_eq, Chart.parseAt_eq⟩

theorem pieces_inRange_of_lines :
    (∃ piece, pieceAt (pieces ',' "0,0,".toList) 2 = .ok piece)
      ∧ (∀ place, place = 1 ∨ place = 2
        → ∃ piece, pieceAt (pieces ',' "2,500,900".toList) place = .ok piece)
      ∧ (∀ place < 2, ∃ piece, pieceAt ((pieces ',' "10, 500".toList).map trim) place = .ok piece)
      ∧ (∀ place < 5, ∃ piece, pieceAt (pieces ',' ",,,,".toList) place = .ok piece)
      ∧ (∃ last piece, lastPlace (pieces ',' "1,2,3,1,0,".toList) = .ok last
        ∧ pieceAt (pieces ',' "1,2,3,1,0,".toList) last = .ok piece)
      ∧ ∃ last parts, lastPlace (pieces ',' ",,,,,,".toList) = .ok last ∧ 5 ≤ last
        ∧ sliceAt (pieces ',' ",,,,,,".toList) 5 last = .ok parts :=
  ⟨(pieces_inRange.1 _).background ⟨[], rfl⟩,
    (pieces_inRange.1 _).pause ⟨"500,900".toList, rfl⟩ (by decide),
    (pieces_inRange.1 _).timingPoint (by decide),
    (pieces_inRange.1 _).hitObject (by decide),
    (pieces_inRange.1 _).sample (by decide),
    (pieces_inRange.1 _).params (by decide)⟩

end Beatmap
