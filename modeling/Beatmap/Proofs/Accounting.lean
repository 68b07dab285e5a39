import Beatmap.Proofs.Outcome

/-!
# Accounting of entries

`Yields` describes an extraction without its state: a directory entry yields nothing, and any other
entry yields exactly one file or exactly one complaint, in the order of the entries. The extraction
of entries none of which is oversized satisfies `Yields` (`yields_foldl`), so the numbers of files,
complaints and directories add up to the number of entries (`Yields.length_add`). With oversized
entries this holds for the entries before the first one.

Entries interact only through the tree, which is changed by files only. An entry that yields no file
regardless of the tree (`Entry.IsBad`) therefore does not affect the files of the other entries,
unless it is oversized (`agree_ofEntries_of_isBad`).
-/

namespace Beatmap.Archive

open Beatmap.Files

/-- The entries yield the given files and complaints. `index` is the index of the first entry in the
archive. -/
inductive Yields :
    Tree → (index : Nat) → List Entry → List (EntryPath × ByteArray) → List Complaint → Prop where
  | nothing (t : Tree) (index : Nat) : Yields t index [] [] []
  | directory {t index rest files complaints} (h : Yields t (index + 1) rest files complaints) :
    Yields t index (.directory :: rest) files complaints
  | file {t t' index path declared content rest files complaints}
    (hplace : place t path content = (t', none))
    (h : Yields t' (index + 1) rest files complaints) :
    Yields t index (.file path declared content :: rest) ((path, content) :: files) complaints
  | refused {t t' index path declared content refusal rest files complaints}
    (hplace : place t path content = (t', some refusal))
    (h : Yields t' (index + 1) rest files complaints) :
    Yields t index (.file path declared content :: rest) files
      (.unwritable path refusal :: complaints)
  | unopenable {t index defect rest files complaints}
    (h : Yields t (index + 1) rest files complaints) :
    Yields t index (.unopenable defect :: rest) files (.unopenable index defect :: complaints)
  | astray {t index name rest files complaints} (h : Yields t (index + 1) rest files complaints) :
    Yields t index (.astray name :: rest) files (.astray name :: complaints)
  | damaged {t index path declared defect rest files complaints}
    (h : Yields t (index + 1) rest files complaints) :
    Yields t index (.damaged path declared defect :: rest) files
      (.damaged path defect :: complaints)

/-- An entry that is not a directory and yields no file, whatever the tree. -/
def Entry.IsBad : Entry → Prop
  | .unopenable _ | .astray _ | .damaged _ _ _ => True
  | .directory | .file _ _ _ => False

theorem Yields.length_add {t : Tree} {index : Nat} {entries : List Entry}
    {files : List (EntryPath × ByteArray)} {complaints : List Complaint}
    (h : Yields t index entries files complaints) :
    files.length + complaints.length + entries.count .directory = entries.length := by
  induction h with
  | nothing t index => rfl
  | directory h ih =>
    rw [List.count_cons_self, List.length_cons]
    omega
  | file _ h ih | refused _ h ih | unopenable h ih | astray h ih | damaged h ih =>
    rw [List.count_cons_of_ne (by simp), List.length_cons, List.length_cons]
    omega

namespace Extraction

variable {x y : Extraction} {entry : Entry}

theorem files_take (hx : x.panic? = none) (h : entry.isOversized = false) :
    (x.take entry).files
      = x.files ++ (extractEntry x.tree x.results.size entry).2.file?.toList := by
  rw [take_of_not_isOversized hx h, files, Array.toList_push, List.filterMap_append]
  cases hr : (extractEntry x.tree x.results.size entry).2.file? <;> simp [hr, files]

theorem complaints_take (hx : x.panic? = none) (h : entry.isOversized = false) :
    (x.take entry).complaints
      = x.complaints ++ (extractEntry x.tree x.results.size entry).2.complaint?.toList := by
  rw [take_of_not_isOversized hx h, complaints, Array.toList_push, List.filterMap_append]
  cases hr : (extractEntry x.tree x.results.size entry).2.complaint? <;> simp [hr, complaints]

theorem files_ofEntries (entries : List Entry) (start : Tree) :
    (ofEntries entries start).files = (ofEntries (reached entries) start).files := by
  rw [files, results_ofEntries, files]

theorem complaints_ofEntries (entries : List Entry) (start : Tree) :
    (ofEntries entries start).complaints = (ofEntries (reached entries) start).complaints := by
  rw [complaints, results_ofEntries, complaints]

/-! ## Extractions satisfy `Yields` -/

/-- From every state without a panic, the extraction of entries that are not oversized satisfies
`Yields`. -/
theorem yields_foldl (entries : List Entry) (hsize : ∀ e ∈ entries, e.isOversized = false)
    (x : Extraction) (hx : x.panic? = none) :
    ∃ files complaints, (entries.foldl take x).files = x.files ++ files
      ∧ (entries.foldl take x).complaints = x.complaints ++ complaints
      ∧ Yields x.tree x.results.size entries files complaints := by
  induction entries generalizing x with
  | nil => exact ⟨[], [], (List.append_nil _).symm, (List.append_nil _).symm, .nothing _ _⟩
  | cons entry rest ih =>
    obtain ⟨hentry, hrest⟩ := List.forall_mem_cons.mp hsize
    have htake := take_of_not_isOversized hx hentry
    obtain ⟨files, complaints, hfiles, hcomplaints, hyields⟩ :=
      ih hrest (x.take entry) (by rw [htake])
    rw [files_take hx hentry, List.append_assoc] at hfiles
    rw [complaints_take hx hentry, List.append_assoc] at hcomplaints
    rw [htake] at hyields
    simp only [Array.size_push] at hyields
    refine ⟨_, _, hfiles, hcomplaints, ?_⟩
    cases entry with
    | unopenable defect => exact .unopenable hyields
    | directory => exact .directory hyields
    | astray name => exact .astray hyields
    | damaged path declared defect => exact .damaged hyields
    | file path declared content =>
      -- The tree decides whether the file can be written.
      cases hplace : place x.tree path content with
      | mk t refusal =>
        simp only [extractEntry, hplace] at hyields ⊢
        cases refusal with
        | none => exact .file hplace hyields
        | some refusal => exact .refused hplace hyields

theorem yields_ofEntries (entries : List Entry) :
    Yields emptyWorkplace 0 (reached entries) (ofEntries entries).files
      (ofEntries entries).complaints := by
  obtain ⟨files, complaints, hfiles, hcomplaints, h⟩ :=
    yields_foldl (reached entries) (fun _ => isOversized_of_mem_reached) {} rfl
  rw [files_ofEntries, complaints_ofEntries, ofEntries, hfiles, hcomplaints]
  exact h

/-! ## Bad entries -/

/-- The extractions have the same tree, the same files and the same panic. -/
structure Agree (x y : Extraction) : Prop where
  tree : x.tree = y.tree
  files : x.files = y.files
  panic : x.panic? = y.panic?

/-- The index of an entry only occurs in its complaint. -/
theorem extractEntry_index (t : Tree) (i j : Nat) (entry : Entry) :
    (extractEntry t i entry).1 = (extractEntry t j entry).1
      ∧ (extractEntry t i entry).2.file? = (extractEntry t j entry).2.file? := by
  cases entry <;> exact ⟨rfl, rfl⟩

theorem Agree.take (h : x.Agree y) (entry : Entry) : (x.take entry).Agree (y.take entry) := by
  cases hx : x.panic? with
  | some panic =>
    have hy : y.panic? = some panic := h.panic ▸ hx
    rwa [take_of_panic (by simp [hx]), take_of_panic (by simp [hy])]
  | none =>
    have hy : y.panic? = none := h.panic ▸ hx
    cases ho : entry.isOversized with
    | true =>
      rw [take_of_isOversized hx ho, take_of_isOversized hy ho]
      exact ⟨h.tree, h.files, rfl⟩
    | false =>
      obtain ⟨hnext, hfile⟩ := extractEntry_index x.tree x.results.size y.results.size entry
      refine ⟨?_, ?_, ?_⟩
      · rw [take_of_not_isOversized hx ho, take_of_not_isOversized hy ho]
        show (extractEntry x.tree x.results.size entry).1
          = (extractEntry y.tree y.results.size entry).1
        rw [hnext, h.tree]
      · rw [files_take hx ho, files_take hy ho, hfile, h.files, h.tree]
      · rw [take_of_not_isOversized hx ho, take_of_not_isOversized hy ho]

theorem Agree.foldl_take (h : x.Agree y) (entries : List Entry) :
    (entries.foldl Extraction.take x).Agree (entries.foldl Extraction.take y) := by
  induction entries generalizing x y with
  | nil => exact h
  | cons entry rest ih => exact ih (h.take entry)

/-- The step for a bad entry changes only the complaints. -/
theorem agree_take_of_isBad (x : Extraction) (h : entry.IsBad) (hsize : entry.isOversized = false) :
    (x.take entry).Agree x := by
  cases hx : x.panic? with
  | some panic =>
    rw [take_of_panic (by simp [hx])]
    exact ⟨rfl, rfl, rfl⟩
  | none =>
    have htake := take_of_not_isOversized hx hsize
    have hfiles := files_take hx hsize
    cases entry with
    | unopenable defect | astray name | damaged path declared defect =>
      refine ⟨by rw [htake]; rfl, ?_, by rw [htake, hx]⟩
      rw [hfiles]
      exact List.append_nil _
    | directory | file path declared content => exact h.elim

theorem agree_ofEntries_of_isBad (before after : List Entry) {bad : Entry} (h : bad.IsBad)
    (hsize : bad.isOversized = false) :
    (ofEntries (before ++ bad :: after)).Agree (ofEntries (before ++ after)) := by
  rw [ofEntries, ofEntries, List.foldl_append, List.foldl_append, List.foldl_cons]
  exact (agree_take_of_isBad _ h hsize).foldl_take after

/-! ## All entries of an archive -/

/-- **Accounting of entries.** Extraction reaches the entries before the first oversized one, or all
entries if none is oversized. The results of these entries satisfy `Yields`, so the numbers of
files, complaints and directories add up to their number. Removing a bad entry that is not oversized
preserves the files of all other entries. If the archive can be opened, processing panics if an
entry is oversized; otherwise no entry makes it fail, and the members are the extracted files. -/
theorem entries_accounted (entries : List Entry) :
    Yields emptyWorkplace 0 (reached entries) (ofEntries entries).files
        (ofEntries entries).complaints
      ∧ (ofEntries entries).files.length + (ofEntries entries).complaints.length
        + (reached entries).count .directory = (reached entries).length
      ∧ (reached entries = entries ↔ ∀ entry ∈ entries, entry.isOversized = false)
      ∧ (∀ before bad after, entries = before ++ bad :: after → bad.IsBad → bad.isOversized = false
        → (ofEntries entries).files = (ofEntries (before ++ after)).files)
      ∧ ∀ filename archive pool entriesOf, entriesOf archive = .ok entries
        → ((∃ entry ∈ entries, entry.isOversized = true)
            → Processed.ofArchive filename archive pool entriesOf
              = .error (.panicked .capacityOverflow))
          ∧ ((∀ entry ∈ entries, entry.isOversized = false)
            → Processed.ofArchive filename archive pool entriesOf = .error (.failed .noCharts)
              ∨ ∃ p, Processed.ofArchive filename archive pool entriesOf = .ok p
                ∧ p.mapset.members = Processed.membersOf (ofEntries entries)) := by
  refine ⟨yields_ofEntries entries, (yields_ofEntries entries).length_add, reached_eq_self_iff,
    ?_, ?_⟩
  · intro before bad after he hbad hsize
    rw [he]
    exact (agree_ofEntries_of_isBad before after hbad hsize).files
  · intro filename archive pool entriesOf hopen
    rw [Processed.ofArchive_of_ok filename pool hopen]
    refine ⟨Processed.ofEntries_of_isOversized filename archive pool, ?_⟩
    intro hsize
    by_cases hchart : ∃ m ∈ Processed.membersOf (ofEntries entries), m.role = .chart
    · obtain ⟨p, hp, hright⟩ :=
        Processed.ofEntries_of_chart filename archive pool hsize hchart
      exact Or.inr ⟨p, hp, hright.members⟩
    · left
      apply Processed.ofEntries_of_no_chart filename archive pool hsize
      intro m hm hrole
      exact hchart ⟨m, hm, hrole⟩

/-- A chart file with declared size `2 ^ 64 - 1`, followed by an ordinary chart file. -/
def oversizedFirst : List Entry :=
  [.file ["a.osu"] 0xFFFFFFFFFFFFFFFF .empty, .file ["b.osu"] 0 .empty]

/-- Neither entry of `oversizedFirst` yields a file or a complaint, and neither is a directory:
extraction panics at the first one and does not reach the second. -/
theorem not_accounted_oversizedFirst :
    (ofEntries oversizedFirst).files.length + (ofEntries oversizedFirst).complaints.length
        + oversizedFirst.count .directory ≠ oversizedFirst.length
      ∧ (ofEntries oversizedFirst.tail).files = [(["b.osu"], .empty)]
      ∧ Processed.ofArchive "a.osz" .empty (some .inOrder) (fun _ => .ok oversizedFirst)
        = .error (.panicked .capacityOverflow) := by
  refine ⟨by decide +kernel, by decide +kernel, ?_⟩
  rw [Processed.ofArchive_of_ok "a.osz" (some .inOrder) rfl]
  exact Processed.ofEntries_of_isOversized _ _ _ ⟨_, List.mem_cons_self .., by decide⟩

end Extraction

end Beatmap.Archive
