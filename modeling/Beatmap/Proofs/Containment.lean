import Beatmap.Proofs.Pieces
import Beatmap.Proofs.Placement

/-!
# Extracted files on disk

`Archive.Holds` relates the files of an extraction, given by paths, to the tree. This module
transfers it to the members of a mapset, whose paths are strings. Since a plain path is recovered
from its text (`EntryPath.steps_text`), the members are stored where their paths say: inside the
working directory, with no member on the path to another, and with the last member of each path as
the content of its file (`stored_membersOf`).
-/

namespace Beatmap

open Files (Tree Route LeadsOn steps)
open Archive (EntryPath Entry Extraction Holds IsInside workplace emptyWorkplace)
open Archive.EntryPath (IsPlain)

namespace Archive.EntryPath

theorem toList_text (path : EntryPath) :
    path.text.toList = Text.join '/' (path.map String.toList) := String.toList_intercalate

/-- A plain path is recovered from its text. -/
theorem steps_text {path : EntryPath} (hne : path ≠ []) (h : IsPlain path) :
    steps path.text = path := by
  have hparts : ∀ part ∈ path.map String.toList, '/' ∉ part := by
    intro part hm
    obtain ⟨step, hs, rfl⟩ := List.mem_map.mp hm
    exact (h step hs).2.2.2.1
  rw [steps, toList_text, Text.pieces_join (by simpa using hne) hparts, List.map_map]
  simp

theorem IsPlain.not_mem_text {path : EntryPath} (h : IsPlain path) : '\\' ∉ path.text.toList := by
  rw [toList_text]
  refine Text.not_mem_join (by decide) fun part hm => ?_
  obtain ⟨step, hs, rfl⟩ := List.mem_map.mp hm
  exact (h step hs).2.2.2.2

end Archive.EntryPath

namespace Member

/-- The path of the member is relative and not empty, contains no backslash, and all its steps lead
to children. -/
structure HasInnerPath (m : Member) : Prop where
  nonempty : m.path ≠ ""
  relative : m.path.toList.head? ≠ some '/'
  forward : '\\' ∉ m.path.toList
  onward : ∀ step ∈ steps m.path, LeadsOn step

/-- The member of an extracted file. -/
def ofFile (file : EntryPath × ByteArray) : Member := ofContent file.1.text file.2

theorem path_ofFile {file : EntryPath × ByteArray} (h : IsPlain file.1) :
    (ofFile file).path = file.1.text := by
  show String.ofList (Path.forwardSlashes file.1.text.toList) = file.1.text
  rw [Path.forwardSlashes_eq_self h.not_mem_text, String.ofList_toList]

theorem steps_ofFile {file : EntryPath × ByteArray} (hne : file.1 ≠ []) (h : IsPlain file.1) :
    steps (ofFile file).path = file.1 := by
  rw [path_ofFile h, EntryPath.steps_text hne h]

theorem hasInnerPath_ofFile {file : EntryPath × ByteArray} (hne : file.1 ≠ [])
    (h : IsPlain file.1) :
    (ofFile file).HasInnerPath where
  nonempty := by
    intro he
    have hsteps := steps_ofFile hne h
    rw [he] at hsteps
    -- The empty text has a single empty step, and a plain path has none.
    exact (h.leadsOn "" (by rw [← hsteps]; decide)).1 rfl
  relative := by
    intro he
    have hsteps := steps_ofFile hne h
    obtain ⟨rest, hrest⟩ := List.head?_eq_some_iff.mp he
    have hfirst : "" ∈ steps (ofFile file).path := by simp [steps, hrest]
    exact (h.leadsOn "" (hsteps ▸ hfirst)).1 rfl
  forward := by
    rw [path_ofFile h]
    exact h.not_mem_text
  onward := by
    rw [steps_ofFile hne h]
    exact h.leadsOn

end Member

/-- The tree contains exactly the members: their paths are inner paths, none of them is a proper
prefix of another, and the files below the working directory are the last members of their paths.
The tree is otherwise the empty working directory. -/
structure Stored (t : Tree) (members : List Member) : Prop where
  inner : ∀ m ∈ members, m.HasInnerPath
  apart : ∀ m ∈ members, ∀ other ∈ members, steps m.path <+: steps other.path → m.path = other.path
  outside : ∀ route, ¬IsInside route → t.node? route = emptyWorkplace.node? route
  files : ∀ route content, t.node? route = some (.file content)
    ↔ ∃ m, (members.filter (·.path == m.path)).getLast? = some m
      ∧ route = workplace ++ steps m.path ∧ m.content = content

namespace Processed

theorem membersOf_eq_map (x : Extraction) : membersOf x = x.files.map Member.ofFile := rfl

/-- The last member with a path holds the last content of that path. -/
theorem getLast?_filter_membersOf {x : Extraction} (h : Holds x.tree x.files)
    {file : EntryPath × ByteArray} (hf : file ∈ x.files) :
    ((membersOf x).filter (·.path == (Member.ofFile file).path)).getLast?
      = (x.files.filter (·.1 == file.1)).getLast?.map Member.ofFile := by
  have hsame : ∀ other ∈ x.files,
      ((fun m : Member => m.path == (Member.ofFile file).path) ∘ Member.ofFile) other
        = (other.1 == file.1) := by
    intro other ho
    obtain ⟨hne, hp⟩ := h.plain file hf
    obtain ⟨hne', hp'⟩ := h.plain other ho
    rw [Bool.eq_iff_iff, Function.comp_apply, beq_iff_eq, beq_iff_eq]
    constructor
    · intro he
      rw [← Member.steps_ofFile hne' hp', he, Member.steps_ofFile hne hp]
    · intro he
      rw [Member.path_ofFile hp', Member.path_ofFile hp, he]
  rw [membersOf_eq_map, List.filter_map, List.filter_congr hsame, List.getLast?_map]

/-- **Files stay inside the working directory.** For all entries with ordinary names, in any order,
the extracted files are inside the working directory, nothing outside changes, and the files in the
resulting tree are the members, where the last member of each path determines the content. -/
theorem stored_membersOf (entries : List Entry) (h : ∀ entry ∈ entries, entry.IsOrdinary) :
    Stored (Extraction.ofEntries entries).tree (membersOf (Extraction.ofEntries entries)) := by
  have hholds := Extraction.holds_ofEntries entries h
  have hmem : ∀ m ∈ membersOf (Extraction.ofEntries entries),
      ∃ file ∈ (Extraction.ofEntries entries).files, Member.ofFile file = m := by
    intro m hm
    rw [membersOf_eq_map] at hm
    exact List.mem_map.mp hm
  refine ⟨?_, ?_, hholds.outside, ?_⟩
  · intro m hm
    obtain ⟨file, hf, rfl⟩ := hmem m hm
    obtain ⟨hne, hp⟩ := hholds.plain file hf
    exact Member.hasInnerPath_ofFile hne hp
  · intro m hm other ho hprefix
    obtain ⟨file, hf, rfl⟩ := hmem m hm
    obtain ⟨file', hf', rfl⟩ := hmem other ho
    obtain ⟨hne, hp⟩ := hholds.plain file hf
    obtain ⟨hne', hp'⟩ := hholds.plain file' hf'
    rw [Member.steps_ofFile hne hp, Member.steps_ofFile hne' hp'] at hprefix
    rw [Member.path_ofFile hp, Member.path_ofFile hp', hholds.eq_of_prefix hf hf' hprefix]
  · intro route content
    rw [hholds.held]
    constructor
    · rintro ⟨path, rfl, hl⟩
      obtain ⟨file, hlast, rfl⟩ := Option.map_eq_some_iff.mp hl
      have hfound := List.mem_filter.mp (List.mem_of_getLast? hlast)
      have hpath : file.1 = path := by simpa using hfound.2
      subst hpath
      obtain ⟨hne, hp⟩ := hholds.plain file hfound.1
      refine ⟨Member.ofFile file, ?_, ?_, rfl⟩
      · rw [getLast?_filter_membersOf hholds hfound.1, hlast]
        rfl
      · rw [Member.steps_ofFile hne hp]
    · rintro ⟨m, hlast, rfl, rfl⟩
      obtain ⟨file, hf, rfl⟩ := hmem m (List.mem_of_mem_filter (List.mem_of_getLast? hlast))
      obtain ⟨hne, hp⟩ := hholds.plain file hf
      refine ⟨file.1, by rw [Member.steps_ofFile hne hp], ?_⟩
      rw [getLast?_filter_membersOf hholds hf] at hlast
      obtain ⟨last, hl, he⟩ := Option.map_eq_some_iff.mp hlast
      rw [Archive.lastContent?, hl, Option.map_some, ← he]
      rfl

/-- Entries with conflicting paths: a repeated path, a path through a file, and a path that is a
directory. -/
def crowded : List Entry :=
  [.file ["a"] 1 ⟨#[1]⟩, .file ["a", "b"] 1 ⟨#[2]⟩, .file ["d", "e"] 1 ⟨#[3]⟩,
    .file ["d"] 1 ⟨#[4]⟩, .file [] 1 ⟨#[5]⟩, .file ["d", "e"] 1 ⟨#[6]⟩]

theorem stored_membersOf_crowded :
    (∀ entry ∈ crowded, entry.IsOrdinary)
      ∧ (membersOf (Extraction.ofEntries crowded)).map (·.path) = ["a", "d/e", "d/e"]
      ∧ Stored (Extraction.ofEntries crowded).tree (membersOf (Extraction.ofEntries crowded)) := by
  have hnames : ∀ entry ∈ crowded, entry.IsOrdinary := by
    simp only [crowded, List.forall_mem_cons]
    refine ⟨⟨['a'], by decide, by decide⟩, ⟨['a', '\\', 'b'], by decide, by decide⟩,
      ⟨['d', '/', 'e'], by decide, by decide⟩,
      ⟨['x', '/', '.', '.', '/', 'd'], by decide, by decide⟩,
      ⟨['x', '/', '.', '.'], by decide, by decide⟩,
      ⟨['.', '/', 'd', '/', 'e'], by decide, by decide⟩, by simp⟩
  refine ⟨hnames, by decide +kernel, stored_membersOf crowded hnames⟩

end Processed

end Beatmap
