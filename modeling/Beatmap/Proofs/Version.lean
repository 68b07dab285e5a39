import Beatmap.Proofs.Run
import Mathlib.Data.List.Infix

/-!
# The version of a chart

The first meaningful line of a file may state the format version, as in `osu file format v14`: the
text after its last ` v`. `StatesVersion` specifies these lines without the scan of
`afterVersionMark` (`readVersion_eq_ok_iff`). The version of a chart is the one stated by the first
meaningful line, if it states one; later lines have no effect (`formatVersion_feedAll`).
-/

namespace Beatmap

open Beatmap.Text Beatmap.Number

/-- The text between the name of a format and its version. -/
def versionMark : List Char := [' ', 'v']

/-- The line is not a header, and the text after its last version marker is a 32-bit integer. -/
def StatesVersion (line : List Char) (version : Int32) : Prop :=
  line.head? ≠ some '[' ∧ ∃ front behind, line = front ++ versionMark ++ behind
    ∧ ¬versionMark <:+: behind ∧ readInt32 (trim behind) = some version

/-- An earlier occurrence only counts if there is no later one. -/
theorem afterVersionMark_eq_or (found : Option (List Char)) (line : List Char) :
    afterVersionMark found line = (afterVersionMark none line).or found := by
  induction line generalizing found with
  | nil => rfl
  | cons c rest ih =>
    simp only [afterVersionMark]
    by_cases hmark : c = ' ' ∧ rest.head? = some 'v'
    · rw [if_pos hmark, if_pos hmark, ih (some rest.tail)]
      cases afterVersionMark none rest <;> rfl
    · rw [if_neg hmark, if_neg hmark]
      exact ih found

theorem afterVersionMark_cons (c : Char) (rest : List Char) :
    afterVersionMark none (c :: rest)
      = (afterVersionMark none rest).or
          (if c = ' ' ∧ rest.head? = some 'v' then some rest.tail else none) :=
  afterVersionMark_eq_or _ rest

theorem versionMark_isPrefix_iff {c : Char} {rest : List Char} :
    versionMark <+: c :: rest ↔ c = ' ' ∧ rest.head? = some 'v' := by
  unfold versionMark
  cases rest with
  | nil => simp
  | cons d rest => simp [List.cons_prefix_cons, eq_comm]

theorem afterVersionMark_eq_none_iff {line : List Char} :
    afterVersionMark none line = none ↔ ¬versionMark <:+: line := by
  induction line with
  | nil => simp [afterVersionMark, versionMark]
  | cons c rest ih =>
    rw [afterVersionMark_cons, Option.or_eq_none_iff, ih, List.infix_cons_iff,
      versionMark_isPrefix_iff]
    by_cases hmark : c = ' ' ∧ rest.head? = some 'v'
    · simp [hmark]
    · simp [hmark]

/-- The text after the last marker: it is preceded by a marker and contains none. -/
theorem afterVersionMark_eq_some_iff {line behind : List Char} :
    afterVersionMark none line = some behind
      ↔ ∃ front, line = front ++ versionMark ++ behind ∧ ¬versionMark <:+: behind := by
  constructor
  · intro h
    induction line with
    | nil => cases h
    | cons c rest ih =>
      rw [afterVersionMark_cons, Option.or_eq_some_iff] at h
      rcases h with hrest | ⟨hnone, hhere⟩
      · obtain ⟨front, hline, hlast⟩ := ih hrest
        exact ⟨c :: front, by rw [hline]; rfl, hlast⟩
      · split at hhere
        next hmark =>
          obtain ⟨rfl, hv⟩ := hmark
          cases rest with
          | nil => cases hv
          | cons d rest =>
            obtain rfl : d = 'v' := Option.some.inj hv
            obtain rfl : rest = behind := Option.some.inj hhere
            refine ⟨[], rfl, fun hin => ?_⟩
            exact afterVersionMark_eq_none_iff.mp hnone (List.infix_cons hin)
        next => cases hhere
  · intro hmark
    obtain ⟨front, rfl, hlast⟩ := hmark
    induction front with
    | nil =>
      -- There is no later occurrence: none starts at the `v`, and `behind` contains none.
      have hv : afterVersionMark none ('v' :: behind) = none := by
        rw [afterVersionMark_cons, afterVersionMark_eq_none_iff.mpr hlast]
        rfl
      show afterVersionMark none (' ' :: 'v' :: behind) = some behind
      rw [afterVersionMark_cons, hv]
      rfl
    | cons c front ih =>
      show afterVersionMark none (c :: (front ++ versionMark ++ behind)) = some behind
      rw [afterVersionMark_cons, ih]
      rfl

/-- The scan yields a version exactly for the lines that state one. -/
theorem readVersion_eq_ok_iff {line : List Char} {version : Int32} :
    readVersion? line = some (.ok version) ↔ StatesVersion line version := by
  unfold readVersion? StatesVersion
  by_cases hhead : line.head? = some '['
  · simp [hhead]
  · rw [if_neg hhead, Option.map_eq_some_iff]
    constructor
    · intro hfound
      obtain ⟨behind, hbehind, hread⟩ := hfound
      obtain ⟨front, hline, hlast⟩ := afterVersionMark_eq_some_iff.mp hbehind
      refine ⟨hhead, front, behind, hline, hlast, ?_⟩
      cases hn : readInt32 (trim behind) with
      | none => rw [hn] at hread; cases hread
      | some n =>
        rw [hn] at hread
        cases hread
        rfl
    · intro hstates
      obtain ⟨-, front, behind, hline, hlast, hread⟩ := hstates
      exact ⟨behind, afterVersionMark_eq_some_iff.mpr ⟨front, hline, hlast⟩, by rw [hread]⟩

example : StatesVersion "osu file format v14".toList 14 :=
  readVersion_eq_ok_iff.mp (by decide)

/-- Headers state no version. -/
theorem readVersion_of_opens {raw : List Char} {s : Section} (h : opens? raw = some s) :
    readVersion? (trim raw) = none := by
  rw [readVersion?, if_pos (Section.head?_of_ofHeader? h)]

/-- The version after a first meaningful line. -/
def versionOf (raw : List Char) : Int32 :=
  match readVersion? (trim raw) with
  | some (.ok version) => version
  | _ => latestFormatVersion

theorem take_formatVersion (chart : Chart) (reading : Reading Statement) :
    (chart.take reading).formatVersion = chart.formatVersion := by
  unfold Chart.take
  split
  next statement _ => cases statement <;> rfl
  next => rfl

/-- The version is determined by the first meaningful line. -/
theorem formatVersion_feedAll (lines : List (List Char)) :
    (Reader.feedAll {} lines).chart.formatVersion
      = ((lines.find? isMeaningful).map versionOf).getD latestFormatVersion := by
  induction lines using List.reverseRecOn with
  | nil => rfl
  | append_singleton lines raw ih =>
    rw [Reader.feedAll_concat, List.find?_append]
    cases hs : lines.any isMeaningful with
    | true =>
      -- After a meaningful line, no line changes the version.
      obtain ⟨first, hmem, hfirst⟩ := List.any_eq_true.mp hs
      have hfound : (lines.find? isMeaningful).isSome = true :=
        List.find?_isSome.mpr ⟨first, hmem, hfirst⟩
      have hkeep : ((Reader.feedAll {} lines).feed raw).chart.formatVersion
          = (Reader.feedAll {} lines).chart.formatVersion := by
        cases hc : isContent raw with
        | false => rw [Reader.chart_feed_other _ hc]
        | true =>
          rw [Reader.feed_of_content _ hc, Reader.started_feedAll, hs]
          dsimp only
          rw [if_pos rfl, Reader.readContent_eq]
          exact take_formatVersion _ _
      rw [hkeep, ih, Option.or_of_isSome hfound]
    | false =>
      have hnone : lines.find? isMeaningful = none := by
        rw [List.find?_eq_none]
        exact List.any_eq_false.mp hs
      -- If the line is meaningful, it is the first such line and determines the version.
      rw [hnone] at ih ⊢
      rw [Option.none_or]
      rcases line_cases raw with hm | ⟨s, ho⟩ | hc
      · rw [Reader.feed_of_not_meaningful _ hm]
        simpa [hm] using ih
      · rw [Reader.feed_of_opens _ ho]
        simpa [isMeaningful_of_opens ho, versionOf, readVersion_of_opens ho] using ih
      · have hm := (isContent_iff.mp hc).1
        rw [Reader.feed_of_content _ hc, Reader.started_feedAll, hs]
        dsimp only
        rw [if_neg Bool.false_ne_true, Reader.readFirst]
        simp only [List.find?_cons, hm, Option.map_some, Option.getD_some, versionOf]
        cases hv : readVersion? (trim raw) with
        | none =>
          rw [Reader.readContent_eq]
          exact (take_formatVersion _ _).trans ih
        | some version =>
          cases version with
          | ok n => rfl
          | error fault => exact ih

end Beatmap
