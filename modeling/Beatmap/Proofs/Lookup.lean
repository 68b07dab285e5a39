import Beatmap.Mapset.Basic
import Beatmap.Proofs.Extensions
import Mathlib.Data.List.Forall2

/-!
# Member lookup

Members are looked up by the normal form of a path. Normalising is idempotent
(`comparable_comparable`), and paths that differ only in ASCII case and in the direction of slashes
have the same normal form (`comparable_of_isRespelling`). All such paths find the same member, which
is the first one with that normal form (`Mapset.lookup_exact`).
-/

namespace Beatmap

open Beatmap.Text

namespace Path

/-- The paths differ only in ASCII case and in the direction of slashes. -/
def IsRespelling (path other : List Char) : Prop :=
  List.Forall₂ (fun c d => lowerAscii c = lowerAscii d
    ∨ (isSeparator c = true ∧ isSeparator d = true))
    path other

theorem comparable_comparable (path : List Char) :
    comparable (comparable path) = comparable path := by
  have hlowered : Lowered (forwardSlashes path) (comparable path) := lowered_lowerCase _
  have hforward : '\\' ∉ comparable path := by
    rw [hlowered.mem_iff (isMark_of_isSeparator rfl)]
    exact not_mem_forwardSlashes path
  rw [comparable, forwardSlashes_eq_self hforward, comparable, lowerCase_lowerCase]

theorem lowerAsciiText_of_isRespelling {path other : List Char} (h : IsRespelling path other) :
    lowerAsciiText (forwardSlashes path) = lowerAsciiText (forwardSlashes other) := by
  have hmark : IsMark '\\' := isMark_of_isSeparator rfl
  induction h with
  | nil => rfl
  | @cons c d rest others head _ ih =>
    have hhead : lowerAscii (if c = '\\' then '/' else c)
        = lowerAscii (if d = '\\' then '/' else d) := by
      rcases head with hletter | ⟨hc, hd⟩
      · have hboth : c = '\\' ↔ d = '\\' := by
          rw [← hmark.lowerAscii_eq_iff, hletter, hmark.lowerAscii_eq_iff]
        by_cases hback : c = '\\'
        · rw [if_pos hback, if_pos (hboth.mp hback)]
        · rw [if_neg hback, if_neg (hback ∘ hboth.mpr), hletter]
      · have hforward : ∀ e, isSeparator e = true → (if e = '\\' then '/' else e) = '/' := by
          intro e he
          split
          · rfl
          · next hne => simpa [isSeparator, hne] using he
        rw [hforward c hc, hforward d hd]
    show lowerAscii _ :: lowerAsciiText (forwardSlashes rest)
      = lowerAscii _ :: lowerAsciiText (forwardSlashes others)
    rw [hhead, ih]

theorem comparable_of_isRespelling {path other : List Char} (h : IsRespelling path other) :
    comparable path = comparable other := by
  have hascii : ∀ p, lowerCase (lowerAsciiText (forwardSlashes p)) = comparable p :=
    fun p => lowerFrom_lowerAsciiText [] (forwardSlashes p)
  rw [← hascii path, lowerAsciiText_of_isRespelling h, hascii]

end Path

namespace Mapset

/-- The result of a lookup depends only on the normal form of the path. -/
theorem findMember?_congr (m : Mapset) {path other : String}
    (h : Path.comparable path.toList = Path.comparable other.toList) :
    m.findMember? path = m.findMember? other := by
  unfold findMember? Member.matchesPath
  rw [h]

/-- **Member lookup.** The normal form of a path is idempotent and invariant under respelling. In
every mapset, all respellings of a path and its normal form find the same member: the first one with
that normal form, and none only if there is none. -/
theorem lookup_exact :
    (∀ path, Path.comparable (Path.comparable path) = Path.comparable path)
      ∧ (∀ path other, Path.IsRespelling path other → Path.comparable path = Path.comparable other)
      ∧ ∀ m : Mapset,
        (∀ path other : String, Path.IsRespelling path.toList other.toList
          → m.findMember? path = m.findMember? other)
        ∧ (∀ path : String, m.findMember? (String.ofList (Path.comparable path.toList))
          = m.findMember? path)
        ∧ (∀ (path : String) (found : Member), m.findMember? path = some found
          ↔ ∃ before after, m.members = before ++ found :: after
            ∧ Path.comparable found.path.toList = Path.comparable path.toList
            ∧ ∀ member ∈ before, Path.comparable member.path.toList ≠ Path.comparable path.toList)
        ∧ (∀ path : String, m.findMember? path = none
          ↔ ∀ member ∈ m.members, Path.comparable member.path.toList
            ≠ Path.comparable path.toList) := by
  refine ⟨Path.comparable_comparable, fun _ _ h => Path.comparable_of_isRespelling h, ?_⟩
  intro m
  refine ⟨?_, ?_, ?_, ?_⟩
  · intro path other h
    exact m.findMember?_congr (Path.comparable_of_isRespelling h)
  · intro path
    apply m.findMember?_congr
    rw [String.toList_ofList, Path.comparable_comparable]
  · intro path found
    rw [findMember?, List.find?_eq_some_iff_append]
    simp only [Member.matchesPath, beq_iff_eq, Bool.not_eq_true', beq_eq_false_iff_ne, ne_eq]
    constructor
    · rintro ⟨hform, before, after, hmembers, hbefore⟩
      exact ⟨before, after, hmembers, hform, hbefore⟩
    · rintro ⟨before, after, hmembers, hform, hbefore⟩
      exact ⟨hform, before, after, hmembers, hbefore⟩
  · intro path
    rw [findMember?, List.find?_eq_none]
    simp only [Member.matchesPath, beq_iff_eq, ne_eq]

/-- A mapset with two members whose paths differ in the case of non-ASCII letters. -/
def withSigmas : Mapset where
  members := [.ofContent "SB\\ΟΔΟΣ\\İ.PNG" .empty, .ofContent "sb/οδος/i̇.png" ⟨#[1]⟩]

theorem lookup_exact_of_sigmas :
    Path.IsRespelling "SB\\ΟΔΟΣ\\İ.PNG".toList "sb/ΟΔΟΣ/İ.png".toList
      ∧ withSigmas.findMember? "sb/ΟΔΟΣ/İ.png" = withSigmas.findMember? "SB\\ΟΔΟΣ\\İ.PNG"
      ∧ withSigmas.findMember? "sb/οδος/i̇.png" = some (.ofContent "SB\\ΟΔΟΣ\\İ.PNG" .empty) := by
  have hspelling : Path.IsRespelling "SB\\ΟΔΟΣ\\İ.PNG".toList "sb/ΟΔΟΣ/İ.png".toList := by
    unfold Path.IsRespelling
    decide +kernel
  obtain ⟨hspellings, -, hfound, -⟩ := lookup_exact.2.2 withSigmas
  refine ⟨hspelling, (hspellings _ _ hspelling).symm, ?_⟩
  exact (hfound _ _).mpr ⟨[], _, rfl, by decide +kernel, by simp⟩

end Mapset

end Beatmap
