/-!
# Character sets as ranges

A character property is represented by its closed ranges of code points in ascending order.
Membership scans the list, so statements about all characters of a property reduce to statements
about a finite list of pairs, which can be decided by evaluation.
-/

namespace Beatmap.Text

/-- Closed ranges of code points, in ascending order. -/
abbrev Ranges := List (Nat × Nat)

/-- Whether the code point of `c` is in one of the ranges. -/
def Ranges.contains (ranges : Ranges) (c : Char) : Bool :=
  ranges.any fun range => range.1 ≤ c.toNat && c.toNat ≤ range.2

theorem Ranges.contains_iff {ranges : Ranges} {c : Char} :
    ranges.contains c = true ↔ ∃ range ∈ ranges, range.1 ≤ c.toNat ∧ c.toNat ≤ range.2 := by
  simp [Ranges.contains]

/-- The ranges are non-empty, disjoint and in ascending order. -/
def Ranges.Ascending : Ranges → Prop
  | [] => True
  | [range] => range.1 ≤ range.2
  | range :: next :: rest => range.1 ≤ range.2 ∧ range.2 < next.1 ∧ Ascending (next :: rest)

instance Ranges.decidableAscending : (ranges : Ranges) → Decidable ranges.Ascending
  | [] => isTrue trivial
  | [range] => inferInstanceAs (Decidable (range.1 ≤ range.2))
  | range :: next :: rest =>
    have := decidableAscending (next :: rest)
    inferInstanceAs (Decidable (range.1 ≤ range.2 ∧ range.2 < next.1 ∧ Ascending (next :: rest)))

end Beatmap.Text
