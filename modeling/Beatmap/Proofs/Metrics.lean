import Beatmap.Chart.Reader
import Mathlib.Order.Bounds.Basic

/-!
# Metrics are exact

The lengths of a chart are those of unbounded integer arithmetic, clamped to the range of `Int32`;
no intermediate result wraps around (`toInt_hitLength`, `toInt_totalLength`). They depend only on
the least and the greatest offset, so like the combo they do not depend on the order of the hit
objects (`compute_perm`). The combo is the number of objects of certain kinds: the bit mask used for
counting agrees with the bits that determine the kind, for all types including negative ones
(`countsTowardsCombo_iff`).
-/

namespace Beatmap

open Beatmap.Number

/-! ## Combo -/

/-- The mask of the combo combines the bits of circles, sliders and spinners. -/
theorem and_comboMask (type : Int32) :
    type &&& 11 = (type &&& 1) ||| (type &&& 2) ||| (type &&& 8) := by
  rw [← Int32.toBitVec_inj]
  simp only [Int32.toBitVec_and, Int32.toBitVec_or, ← BitVec.and_or_distrib_left]
  rfl

theorem HitObject.countsTowardsCombo_iff (o : HitObject) :
    o.countsTowardsCombo = true ↔ o.kind = .circle ∨ o.kind = .slider ∨ o.kind = .spinner := by
  have hmask : o.type &&& 11 = 0 ↔ (o.type &&& 1 = 0 ∧ o.type &&& 2 = 0) ∧ o.type &&& 8 = 0 := by
    rw [and_comboMask, Int32.or_eq_zero_iff, Int32.or_eq_zero_iff]
  have hbits : o.countsTowardsCombo = (o.hasBit 0 || o.hasBit 1 || o.hasBit 3) := by
    rw [Bool.eq_iff_iff]
    show (o.type &&& 11 != 0) = true
      ↔ (o.type &&& 1 != 0 || o.type &&& 2 != 0 || o.type &&& 8 != 0) = true
    simp only [bne_iff_ne, ne_eq, Bool.or_eq_true, hmask, not_and_or]
  rw [hbits]
  unfold kind
  cases o.hasBit 0 with
  | true => simp
  | false =>
    cases o.hasBit 1 with
    | true => simp
    | false =>
      cases o.hasBit 3 with
      | true => simp
      | false => cases o.hasBit 7 <;> simp

namespace Metrics

/-! ## The range of offsets -/

theorem toInt_max (a b : Int32) : (max a b).toInt = max a.toInt b.toInt := by
  have hle : a ≤ b ↔ a.toInt ≤ b.toInt := Int32.le_iff_toInt_le
  show (if a ≤ b then b else a).toInt = _
  by_cases h : a ≤ b
  · rw [if_pos h, Int.max_eq_right (hle.mp h)]
  · have hlt : ¬a.toInt ≤ b.toInt := fun h' => h (hle.mpr h')
    rw [if_neg h, Int.max_eq_left (by omega)]

instance : Std.LawfulOrderMax Int32 where
  max_le_iff a b c := by
    rw [Int32.le_iff_toInt_le, Int32.le_iff_toInt_le, Int32.le_iff_toInt_le, toInt_max]
    omega
  max_eq_or a b := by
    rw [← Int32.toInt_inj, ← Int32.toInt_inj, toInt_max]
    omega

/-- The offsets of some objects as integers. -/
def offsetsOf (objects : List HitObject) : Set Int := {n | ∃ o ∈ objects, o.offset.toInt = n}

/-- A non-empty list of objects has a least and a greatest offset. -/
theorem exists_extent {objects : List HitObject} (h : objects ≠ []) :
    ∃ first last : Int32, (objects.map (·.offset)).min? = some first
      ∧ (objects.map (·.offset)).max? = some last
      ∧ IsLeast (offsetsOf objects) first.toInt ∧ IsGreatest (offsetsOf objects) last.toInt := by
  have hne : objects.map (·.offset) ≠ [] := by simpa using h
  obtain ⟨first, hfirst⟩ := Option.isSome_iff_exists.mp (List.isSome_min?_of_ne_nil hne)
  obtain ⟨last, hlast⟩ := Option.isSome_iff_exists.mp (List.isSome_max?_of_ne_nil hne)
  refine ⟨first, last, hfirst, hlast, ?_, ?_⟩
  · obtain ⟨hmem, hle⟩ := List.min?_eq_some_iff.mp hfirst
    obtain ⟨o, ho, rfl⟩ := List.mem_map.mp hmem
    refine ⟨⟨o, ho, rfl⟩, ?_⟩
    rintro n ⟨p, hp, rfl⟩
    exact Int32.le_iff_toInt_le.mp (hle _ (List.mem_map_of_mem hp))
  · obtain ⟨hmem, hle⟩ := List.max?_eq_some_iff.mp hlast
    obtain ⟨o, ho, rfl⟩ := List.mem_map.mp hmem
    refine ⟨⟨o, ho, rfl⟩, ?_⟩
    rintro n ⟨p, hp, rfl⟩
    exact Int32.le_iff_toInt_le.mp (hle _ (List.mem_map_of_mem hp))

theorem min?_perm {offsets offsets' : List Int32} (h : offsets.Perm offsets') :
    offsets.min? = offsets'.min? := by
  apply Option.ext
  intro first
  rw [List.min?_eq_some_iff, List.min?_eq_some_iff]
  simp only [h.mem_iff]

theorem max?_perm {offsets offsets' : List Int32} (h : offsets.Perm offsets') :
    offsets.max? = offsets'.max? := by
  apply Option.ext
  intro last
  rw [List.max?_eq_some_iff, List.max?_eq_some_iff]
  simp only [h.mem_iff]

/-! ## Metrics -/

variable {previewTime : Int32} {timingPoints : List TimingPoint} {objects : List HitObject}
  {first last : Int32}

/-- The metrics of a chart with given least and greatest offsets. -/
theorem compute_of_extent (hfirst : (objects.map (·.offset)).min? = some first)
    (hlast : (objects.map (·.offset)).max? = some last) :
    compute previewTime timingPoints objects
      = { totalLength :=
            if 0 < previewTime then
              max (saturatingAdd last windDown) (saturatingAdd previewTime previewLength)
            else saturatingAdd last windDown
          hitLength := saturatingSub last first
          maxCombo := (objects.countP (·.countsTowardsCombo)).toUInt32
          bpm := (timingPoints.findSome? (·.bpm)).getD (.zero false) } := by
  simp only [compute, hfirst, hlast]

/-- The metrics do not depend on the order of the hit objects. -/
theorem compute_perm {objects' : List HitObject} (h : objects.Perm objects') :
    compute previewTime timingPoints objects = compute previewTime timingPoints objects' := by
  have hoffsets : (objects.map (·.offset)).Perm (objects'.map (·.offset)) := h.map _
  simp only [compute, min?_perm hoffsets, max?_perm hoffsets, h.countP_eq]

/-- The hit length is the difference of the offsets, clamped from above. -/
theorem toInt_hitLength (h : first.toInt ≤ last.toInt) :
    (saturatingSub last first).toInt = min (last.toInt - first.toInt) 2147483647 := by
  rw [toInt_saturatingSub]
  omega

/-- Adding the wind-down time does not underflow. -/
theorem toInt_tail (last : Int32) :
    (saturatingAdd last windDown).toInt = min (last.toInt + 2000) 2147483647 := by
  have hlast := last.le_toInt
  rw [toInt_saturatingAdd]
  show max (-2147483648) (min (last.toInt + 2000) 2147483647) = _
  omega

theorem toInt_preview {previewTime : Int32} (h : 0 < previewTime) :
    (saturatingAdd previewTime previewLength).toInt
      = min (previewTime.toInt + 30000) 2147483647 := by
  have hpositive : 0 < previewTime.toInt := Int32.lt_iff_toInt_lt.mp h
  rw [toInt_saturatingAdd]
  show max (-2147483648) (min (previewTime.toInt + 30000) 2147483647) = _
  omega

theorem toInt_totalLength (previewTime last : Int32) :
    (if 0 < previewTime then
        max (saturatingAdd last windDown) (saturatingAdd previewTime previewLength)
      else saturatingAdd last windDown).toInt
      = if 0 < previewTime.toInt then
          max (min (last.toInt + 2000) 2147483647) (min (previewTime.toInt + 30000) 2147483647)
        else min (last.toInt + 2000) 2147483647 := by
  have hiff : 0 < previewTime ↔ 0 < previewTime.toInt := Int32.lt_iff_toInt_lt
  by_cases h : 0 < previewTime
  · rw [if_pos h, if_pos (hiff.mp h), toInt_max, toInt_tail, toInt_preview h]
  · rw [if_neg h, if_neg (mt hiff.mpr h), toInt_tail]

/-- The tempo is that of the first uninherited timing point. -/
theorem findSome?_bpm_getD (timingPoints : List TimingPoint) :
    let tempo := (timingPoints.findSome? (·.bpm)).getD (.zero false)
    (∃ before p after, timingPoints = before ++ p :: after ∧ (∀ q ∈ before, q.bpm = none)
        ∧ p.bpm = some tempo)
      ∨ ((∀ q ∈ timingPoints, q.bpm = none) ∧ tempo = .zero false) := by
  intro tempo
  cases h : timingPoints.findSome? (·.bpm) with
  | none =>
    right
    refine ⟨List.findSome?_eq_none_iff.mp h, ?_⟩
    show (timingPoints.findSome? (·.bpm)).getD (.zero false) = _
    rw [h, Option.getD_none]
  | some bpm =>
    left
    obtain ⟨before, p, after, heq, hp, hbefore⟩ := List.findSome?_eq_some_iff.mp h
    refine ⟨before, p, after, heq, hbefore, ?_⟩
    show p.bpm = some ((timingPoints.findSome? (·.bpm)).getD (.zero false))
    rw [h, Option.getD_some]
    exact hp

end Metrics

/-- **Metrics are exact.** The metrics of a chart without hit objects are zero. Otherwise the
lengths are those of unbounded integers, clamped from above; the combo is the number of circles,
sliders and spinners, for fewer than `2 ^ 32` objects; the tempo is that of the first uninherited
timing point. The order of the hit objects does not matter. -/
theorem metrics_exact (text : String) :
    let chart := (Chart.parse text).1
    let objects := chart.hitObjects.toList
    let preview := chart.general.previewTime.toInt
    let m := chart.metrics
    (objects = [] → m.hitLength = 0 ∧ m.totalLength = 0 ∧ m.maxCombo = 0 ∧ m.bpm = .zero false)
      ∧ (objects ≠ [] → ∃ lo hi : Int,
          IsLeast (Metrics.offsetsOf objects) lo ∧ IsGreatest (Metrics.offsetsOf objects) hi
          ∧ m.hitLength.toInt = min (hi - lo) 2147483647
          ∧ 0 ≤ m.hitLength.toInt
          ∧ m.totalLength.toInt
            = (let tail := min (hi + 2000) 2147483647
              if 0 < preview then max tail (min (preview + 30000) 2147483647) else tail)
          ∧ (-2000 ≤ lo → m.hitLength.toInt ≤ m.totalLength.toInt))
      ∧ (objects ≠ [] → objects.length < 4294967296 → m.maxCombo.toNat
          = objects.countP fun o => o.kind = .circle ∨ o.kind = .slider ∨ o.kind = .spinner)
      ∧ (objects ≠ [] →
          (∃ before p after, chart.timingPoints.toList = before ++ p :: after
              ∧ (∀ q ∈ before, q.bpm = none) ∧ p.bpm = some m.bpm)
            ∨ ((∀ q ∈ chart.timingPoints.toList, q.bpm = none) ∧ m.bpm = .zero false))
      ∧ ∀ other : Array HitObject, other.toList.Perm objects →
          { chart with hitObjects := other }.withMetrics.metrics = m := by
  intro chart objects preview m
  have hm : m = Metrics.compute chart.general.previewTime chart.timingPoints.toList objects := rfl
  refine ⟨?_, ?_, ?_, ?_, ?_⟩
  · intro hnone
    rw [hm, hnone, Metrics.compute_nil]
    exact ⟨rfl, rfl, rfl, rfl⟩
  · intro hsome
    obtain ⟨first, last, hfirst, hlast, hleast, hgreatest⟩ := Metrics.exists_extent hsome
    have horder : first.toInt ≤ last.toInt := hleast.2 hgreatest.1
    have hhit : m.hitLength.toInt = min (last.toInt - first.toInt) 2147483647 := by
      rw [hm, Metrics.compute_of_extent hfirst hlast]
      exact Metrics.toInt_hitLength horder
    have htotal : m.totalLength.toInt
        = (let tail := min (last.toInt + 2000) 2147483647
          if 0 < preview then max tail (min (preview + 30000) 2147483647) else tail) := by
      rw [hm, Metrics.compute_of_extent hfirst hlast]
      exact Metrics.toInt_totalLength chart.general.previewTime last
    refine ⟨first.toInt, last.toInt, hleast, hgreatest, hhit, by omega, htotal, ?_⟩
    intro hearly
    dsimp only at htotal
    split at htotal <;> omega
  · intro hsome hfew
    obtain ⟨first, last, hfirst, hlast, -, -⟩ := Metrics.exists_extent hsome
    have hcount : objects.countP (·.countsTowardsCombo)
        = objects.countP fun o => o.kind = .circle ∨ o.kind = .slider ∨ o.kind = .spinner := by
      apply List.countP_congr
      intro o _
      rw [o.countsTowardsCombo_iff, decide_eq_true_iff]
    have hle : objects.countP (·.countsTowardsCombo) ≤ objects.length := List.countP_le_length
    rw [hm, Metrics.compute_of_extent hfirst hlast, ← hcount]
    exact Nat.mod_eq_of_lt (by omega)
  · intro hsome
    obtain ⟨first, last, hfirst, hlast, -, -⟩ := Metrics.exists_extent hsome
    rw [hm, Metrics.compute_of_extent hfirst hlast]
    exact Metrics.findSome?_bpm_getD chart.timingPoints.toList
  · intro other hperm
    exact Metrics.compute_perm hperm

end Beatmap
