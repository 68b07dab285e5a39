/-!
# Worker pools

A pool processes the items of a list in an arbitrary order, each exactly once. The result of an item
is stored at the index of the item, and the results are collected by index at the end. The order of
the results is therefore that of the items (`collect_eq_map`).
-/

namespace Beatmap

/-- The order in which a pool finishes its items. -/
structure Pool where
  /-- For a list of length `n`, the indices of its items in the order in which they are finished. -/
  order : Nat → List Nat
  perm : ∀ n, (order n).Perm (List.range n)

namespace Pool

variable {α β : Type}

/-- The pool that finishes items in list order. -/
def inOrder : Pool where
  order := List.range
  perm n := List.Perm.refl (List.range n)

/-- Stores the result of the item at an index. -/
def finish (f : α → β) (items : List α) (results : Array (Option β)) (place : Nat) :
    Array (Option β) :=
  results.setIfInBounds place (items[place]?.map f)

/-- Processes all items and collects the results by index. -/
def collect (pool : Pool) (f : α → β) (items : List α) : List β :=
  let results := (pool.order items.length).foldl (finish f items)
    (Array.replicate items.length none)
  results.toList.filterMap id

/-- `finish` preserves the number of results. -/
theorem size_finish (f : α → β) (items : List α) (results : Array (Option β)) (place : Nat) :
    (finish f items results place).size = results.size := by
  simp [finish]

/-- The results after the items at some indices are finished. -/
theorem getElem?_foldl_finish (f : α → β) (items : List α) (order : List Nat)
    (results : Array (Option β)) (i : Nat) (hi : i < results.size) :
    (order.foldl (finish f items) results)[i]?
      = if i ∈ order then some (items[i]?.map f) else results[i]? := by
  induction order generalizing results with
  | nil => simp
  | cons place rest ih =>
    rw [List.foldl_cons, ih _ (by rw [size_finish]; exact hi)]
    by_cases hrest : i ∈ rest
    · -- The place is written once more, with the same result.
      simp [hrest]
    · by_cases hplace : i = place
      · subst hplace
        simp [finish, hrest, hi]
      · have hne : place ≠ i := fun h => hplace h.symm
        simp [finish, hrest, hplace, hne]

theorem size_foldl_finish (f : α → β) (items : List α) (order : List Nat)
    (results : Array (Option β)) :
    (order.foldl (finish f items) results).size = results.size := by
  induction order generalizing results with
  | nil => rfl
  | cons place rest ih => rw [List.foldl_cons, ih, size_finish]

/-- The results are in the order of the items. -/
theorem collect_eq_map (pool : Pool) (f : α → β) (items : List α) :
    pool.collect f items = items.map f := by
  have hmem : ∀ i, i ∈ pool.order items.length ↔ i < items.length := by
    intro i
    rw [(pool.perm items.length).mem_iff, List.mem_range]
  have hfull : ((pool.order items.length).foldl (finish f items)
      (Array.replicate items.length none)).toList = (items.map f).map some := by
    apply List.ext_getElem?
    intro i
    by_cases hi : i < items.length
    · rw [Array.getElem?_toList, getElem?_foldl_finish f items _ _ i (by simpa using hi),
        if_pos ((hmem i).2 hi)]
      simp [hi]
    · rw [Array.getElem?_toList, Array.getElem?_eq_none (by
          rw [size_foldl_finish, Array.size_replicate]; omega)]
      simp [Nat.le_of_not_lt hi]
  show (Array.toList _).filterMap id = items.map f
  rw [hfull]
  simp

end Pool

end Beatmap
