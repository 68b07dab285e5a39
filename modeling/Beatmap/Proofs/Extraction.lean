import Beatmap.Archive.Extraction
import Mathlib.Data.List.Induction
import Mathlib.Data.List.TakeWhile

/-!
# Results of an extraction

An extraction ends at the first oversized entry. Its results are those of the entries before it
(`reached`), and it panics exactly if there is such an entry (`ofEntries_eq`).

`Accounts` relates an entry to the results it can have in any tree. Every step satisfies it
(`extractEntry_accounts`), and therefore every result of an extraction is one of the entry at its
index (`accounts_results`).
-/

namespace Beatmap.Archive

open Beatmap.Files

/-- The results that the entry at an index can have. -/
inductive Accounts (index : Nat) : Entry → Result → Prop where
  | unopenable (defect : EntryDefect) :
    Accounts index (.unopenable defect) (.leftOut (.unopenable index defect))
  | directory : Accounts index .directory .directory
  | astray (name : String) : Accounts index (.astray name) (.leftOut (.astray name))
  | damaged (path : EntryPath) (declared : Nat) (defect : ContentDefect) :
    Accounts index (.damaged path declared defect) (.leftOut (.damaged path defect))
  | placed (path : EntryPath) (declared : Nat) (content : ByteArray) :
    Accounts index (.file path declared content) (.file path content)
  | refused (path : EntryPath) (declared : Nat) (content : ByteArray) (refusal : Refusal) :
    Accounts index (.file path declared content) (.leftOut (.unwritable path refusal))

/-- The result of a step is one of its entry. -/
theorem extractEntry_accounts (t : Tree) (index : Nat) (entry : Entry) :
    Accounts index entry (extractEntry t index entry).2 := by
  cases entry with
  | unopenable defect => exact .unopenable defect
  | directory => exact .directory
  | astray name => exact .astray name
  | damaged path declared defect => exact .damaged path declared defect
  | file path declared content =>
    simp only [extractEntry]
    split
    next => exact .placed path declared content
    next refusal _ => exact .refused path declared content refusal

namespace Extraction

/-! ## The end of an extraction -/

/-- The entries before the first oversized one. -/
def reached (entries : List Entry) : List Entry := entries.takeWhile (!·.isOversized)

theorem isOversized_of_mem_reached {entries : List Entry} {entry : Entry}
    (h : entry ∈ reached entries) : entry.isOversized = false := by
  simpa using List.mem_takeWhile_imp h

theorem reached_eq_self_iff {entries : List Entry} :
    reached entries = entries ↔ ∀ entry ∈ entries, entry.isOversized = false := by
  simp [reached, List.takeWhile_eq_self_iff]

variable {x : Extraction} {entry : Entry}

/-- After a panic, an extraction does not change. -/
theorem take_of_panic (h : x.panic?.isSome) : x.take entry = x := if_pos h

theorem take_of_isOversized (hx : x.panic? = none) (h : entry.isOversized = true) :
    x.take entry = { x with panic? := some .capacityOverflow } := by
  simp [take, hx, h]

/-- The step for an entry that is not oversized. -/
theorem take_of_not_isOversized (hx : x.panic? = none) (h : entry.isOversized = false) :
    x.take entry = {
      tree := (extractEntry x.tree x.results.size entry).1
      results := x.results.push (extractEntry x.tree x.results.size entry).2
      panic? := none } := by
  simp [take, hx, h]

theorem foldl_take_of_panic (entries : List Entry) (h : x.panic?.isSome) :
    entries.foldl take x = x := by
  induction entries with
  | nil => rfl
  | cons entry rest ih => rw [List.foldl_cons, take_of_panic h, ih]

/-- An extraction is that of the entries before the first oversized one, with a panic if there is
one. -/
theorem foldl_take_eq (entries : List Entry) (hx : x.panic? = none) :
    entries.foldl take x = { (reached entries).foldl take x with
      panic? := if entries.any (·.isOversized) then some .capacityOverflow else none } := by
  induction entries generalizing x with
  | nil =>
    rw [reached, List.takeWhile_nil, List.foldl_nil, List.any_nil, if_neg Bool.false_ne_true, ← hx]
  | cons entry rest ih =>
    rw [List.foldl_cons, List.any_cons]
    cases ho : entry.isOversized with
    | true =>
      rw [take_of_isOversized hx ho, foldl_take_of_panic rest rfl, reached,
        List.takeWhile_cons_of_neg (by simp [ho])]
      rfl
    | false =>
      have hnext : (x.take entry).panic? = none := by rw [take_of_not_isOversized hx ho]
      rw [reached, List.takeWhile_cons_of_pos (by simp [ho]), List.foldl_cons, ih hnext]
      rfl

theorem ofEntries_eq (entries : List Entry) (start : Tree) :
    ofEntries entries start = { ofEntries (reached entries) start with
      panic? := if entries.any (·.isOversized) then some .capacityOverflow else none } :=
  foldl_take_eq entries rfl

theorem panic?_ofEntries (entries : List Entry) (start : Tree) :
    (ofEntries entries start).panic?
      = if entries.any (·.isOversized) then some .capacityOverflow else none := by
  rw [ofEntries_eq]

theorem panic?_ofEntries_eq_none {entries : List Entry} (start : Tree)
    (h : ∀ entry ∈ entries, entry.isOversized = false) :
    (ofEntries entries start).panic? = none := by
  rw [panic?_ofEntries, List.any_eq_false.mpr (by simpa using h), if_neg Bool.false_ne_true]

theorem panic?_ofEntries_of_isOversized {entries : List Entry} (start : Tree)
    (h : ∃ entry ∈ entries, entry.isOversized = true) :
    (ofEntries entries start).panic? = some .capacityOverflow := by
  rw [panic?_ofEntries, List.any_eq_true.mpr h, if_pos rfl]

theorem results_ofEntries (entries : List Entry) (start : Tree) :
    (ofEntries entries start).results = (ofEntries (reached entries) start).results := by
  rw [ofEntries_eq]

/-! ## Results by index -/

theorem ofEntries_concat (entries : List Entry) (entry : Entry) (start : Tree) :
    ofEntries (entries ++ [entry]) start = (ofEntries entries start).take entry := by
  simp [ofEntries]

variable {entries : List Entry} (start : Tree)

/-- The last step of the extraction of entries none of which is oversized. -/
theorem ofEntries_concat_of_not_isOversized
    (h : ∀ e ∈ entries ++ [entry], e.isOversized = false) :
    let x := ofEntries entries start
    ofEntries (entries ++ [entry]) start = {
      tree := (extractEntry x.tree x.results.size entry).1
      results := x.results.push (extractEntry x.tree x.results.size entry).2
      panic? := none } := by
  have hbefore := panic?_ofEntries_eq_none start fun e he => h e (List.mem_append_left _ he)
  rw [ofEntries_concat]
  exact take_of_not_isOversized hbefore (h entry (by simp))

theorem size_results (h : ∀ e ∈ entries, e.isOversized = false) :
    (ofEntries entries start).results.size = entries.length := by
  induction entries using List.reverseRecOn with
  | nil => rfl
  | append_singleton before last ih =>
    have hbefore := ih fun e he => h e (List.mem_append_left _ he)
    rw [ofEntries_concat_of_not_isOversized start h, Array.size_push, hbefore, List.length_append,
      List.length_singleton]

/-- The result at an index is one of the entry at that index. -/
theorem accounts_results (h : ∀ e ∈ entries, e.isOversized = false) (i : Nat) (entry : Entry)
    (hi : entries[i]? = some entry) :
    ∃ result, (ofEntries entries start).results[i]? = some result ∧ Accounts i entry result := by
  induction entries using List.reverseRecOn with
  | nil => simp at hi
  | append_singleton before last ih =>
    have hbefore : ∀ e ∈ before, e.isOversized = false := fun e he =>
      h e (List.mem_append_left _ he)
    have hsize := size_results start hbefore
    rw [ofEntries_concat_of_not_isOversized start h, Array.getElem?_push, hsize]
    by_cases hlast : i = before.length
    · -- The entry is that of the last step.
      subst hlast
      rw [List.getElem?_concat_length] at hi
      cases hi
      refine ⟨_, if_pos rfl, ?_⟩
      exact extractEntry_accounts _ _ _
    · rw [if_neg hlast]
      apply ih hbefore
      have hlt : i < before.length := by
        obtain ⟨hlt, _⟩ := List.getElem?_eq_some_iff.mp hi
        rw [List.length_append, List.length_singleton] at hlt
        omega
      rwa [List.getElem?_append_left hlt] at hi

end Extraction

end Beatmap.Archive
