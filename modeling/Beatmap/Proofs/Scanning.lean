import Beatmap.Command.Run
import Beatmap.Proofs.Extensions
import Mathlib.Data.List.Lex
import Mathlib.Data.List.Nodup
import Mathlib.Data.String.Basic

/-!
# Archives of an input

A file name has the extension of an archive if it ends with a dot and `osz`, in any case, with at
least one character before the dot (`isArchiveName_iff`). Of the items that a walk visits, the
regular files with such a name remain, and none below the first level (`archivesAt_directory`).
Distinct names give distinct paths (`under_injective`), and the order of paths is linear, since a
path is determined by its steps (`steps_injective`). The sorted list of paths is therefore unique
(`mergeSort_congr`), and a run does not depend on the order of the directory listing.
-/

namespace Beatmap.Command

open Beatmap.Text Beatmap.Files

/-! ## Names of archives -/

/-- The name ends with a dot and `osz`, in any case, with at least one character before the dot. -/
def HasArchiveExtension (name : String) : Prop :=
  ∃ stem o s z, name.toList = stem ++ ['.', o, s, z] ∧ stem ≠ []
    ∧ (o = 'o' ∨ o = 'O') ∧ (s = 's' ∨ s = 'S') ∧ (z = 'z' ∨ z = 'Z')

/-- A character whose ASCII lower case is a given small letter. -/
theorem lowerAscii_eq_small_iff {c small capital : Char}
    (hsmall : 0x61 ≤ small.toNat ∧ small.toNat ≤ 0x7A)
    (hcapital : capital.toNat + 32 = small.toNat) :
    lowerAscii c = small ↔ c = small ∨ c = capital := by
  cases hc : asciiRun.holds c with
  | false =>
    rw [lowerAscii_eq_self hc]
    refine ⟨.inl, ?_⟩
    intro h
    rcases h with h | rfl
    · exact h
    · have hholds : asciiRun.holds c = true :=
        CaseRun.holds_iff.mpr
          ⟨show 0x41 ≤ c.toNat by omega, show c.toNat ≤ 0x5A by omega, Nat.mod_one _⟩
      rw [hc] at hholds
      cases hholds
  | true =>
    obtain ⟨hfirst, hlast, -⟩ := CaseRun.holds_iff.mp hc
    have hfirst : 0x41 ≤ c.toNat := hfirst
    have hlast : c.toNat ≤ 0x5A := hlast
    have hform : (lowerAscii c).toNat = 0x61 + (c.toNat - 0x41) := by
      rw [lowerAscii_eq_form hc]
      exact CaseRun.toNat_form asciiRun_mem hc
    rw [← Char.toNat_inj, ← Char.toNat_inj, ← Char.toNat_inj, hform]
    omega

theorem lowerAsciiText_eq_osz_iff {ext : List Char} :
    lowerAsciiText ext = "osz".toList ↔ ∃ o s z, ext = [o, s, z]
      ∧ (o = 'o' ∨ o = 'O') ∧ (s = 's' ∨ s = 'S') ∧ (z = 'z' ∨ z = 'Z') := by
  have ho : ∀ c, lowerAscii c = 'o' ↔ c = 'o' ∨ c = 'O' := fun _ =>
    lowerAscii_eq_small_iff (by decide) (by decide)
  have hs : ∀ c, lowerAscii c = 's' ↔ c = 's' ∨ c = 'S' := fun _ =>
    lowerAscii_eq_small_iff (by decide) (by decide)
  have hz : ∀ c, lowerAscii c = 'z' ↔ c = 'z' ∨ c = 'Z' := fun _ =>
    lowerAscii_eq_small_iff (by decide) (by decide)
  have hword : "osz".toList = ['o', 's', 'z'] := by decide
  simp only [hword, lowerAsciiText, List.map_eq_cons_iff, List.map_eq_nil_iff, ← ho, ← hs, ← hz]
  constructor
  · intro hletters
    obtain ⟨o, _, rfl, ho, s, _, rfl, hs, z, _, rfl, hz, rfl⟩ := hletters
    exact ⟨o, s, z, rfl, ho, hs, hz⟩
  · intro hext
    obtain ⟨o, s, z, rfl, ho, hs, hz⟩ := hext
    exact ⟨o, _, rfl, ho, s, _, rfl, hs, z, _, rfl, hz, rfl⟩

theorem isArchiveName_iff {name : String} :
    isArchiveName name = true ↔ HasArchiveExtension name := by
  have hbehind : ∀ {stem ext : List Char}, '.' ∉ ext → name.toList = stem ++ '.' :: ext
      → (isArchiveName name = true ↔ stem ≠ [] ∧ lowerAsciiText ext = "osz".toList) := by
    intro stem ext hdot hname
    rw [isArchiveName, hname, Path.extensionOfName?_append hdot, beq_iff_eq]
    split
    · next hnone =>
      refine iff_of_false (by simp) ?_
      intro hbehind
      obtain ⟨hstem, hosz⟩ := hbehind
      rcases hnone with hnil | ⟨-, rfl⟩
      · exact hstem hnil
      · exact absurd hosz (by decide)
    · next hsome => simp [not_or.mp hsome]
  constructor
  · intro harchive
    rcases Path.exists_cut_at_last (· == '.') name.toList
      with hnone | ⟨stem, mark, ext, hname, hmark, hext⟩
    · have hdot : '.' ∉ name.toList := fun hm => by simpa using hnone _ hm
      rw [isArchiveName, Path.extensionOfName?_eq_none hdot] at harchive
      cases harchive
    · obtain rfl : mark = '.' := by simpa using hmark
      have hdot : '.' ∉ ext := fun hm => by simpa using hext _ hm
      obtain ⟨hstem, hosz⟩ := (hbehind hdot hname).mp harchive
      obtain ⟨o, s, z, rfl, hletters⟩ := lowerAsciiText_eq_osz_iff.mp hosz
      exact ⟨stem, o, s, z, hname, hstem, hletters⟩
  · intro hext
    obtain ⟨stem, o, s, z, hname, hstem, ho, hs, hz⟩ := hext
    have hdot : '.' ∉ [o, s, z] := by
      rcases ho with rfl | rfl <;> rcases hs with rfl | rfl <;> rcases hz with rfl | rfl <;> decide
    exact (hbehind hdot hname).mpr ⟨hstem, lowerAsciiText_eq_osz_iff.mpr ⟨o, s, z, rfl, ho, hs, hz⟩⟩

instance (name : String) : Decidable (HasArchiveExtension name) :=
  decidable_of_iff (isArchiveName name = true) isArchiveName_iff

/-- A leading dot does not start an extension. -/
example : HasArchiveExtension "a.b.OsZ" ∧ ¬HasArchiveExtension ".osz"
    ∧ ¬HasArchiveExtension "osz" := by
  decide +kernel

/-! ## Walks -/

variable (listing : Listing) (path : String) (route : Route)

/-- The files of a directory listing that have the name of an archive. -/
def archivesListed : List (String × Kind) :=
  (listing.entries route).filter fun entry => entry.2 == .file && isArchiveName entry.1

theorem mem_archivesListed {name : String} {kind : Kind} :
    (name, kind) ∈ archivesListed listing route
      ↔ (name, .file) ∈ listing.entries route ∧ HasArchiveExtension name ∧ kind = .file := by
  simp only [archivesListed, List.mem_filter, Bool.and_eq_true, beq_iff_eq, isArchiveName_iff]
  constructor
  · intro hlisted
    obtain ⟨hmem, rfl, hname⟩ := hlisted
    exact ⟨hmem, hname, rfl⟩
  · intro hfile
    obtain ⟨hmem, hname, rfl⟩ := hfile
    exact ⟨hmem, rfl, hname⟩

/-- A walk of depth one visits a directory and its items. -/
theorem walk_directory :
    walk listing 1 ⟨path, route, .directory⟩ = ⟨path, route, .directory⟩
      :: (listing.entries route).map (Found.child ⟨path, route, .directory⟩) := by
  simp only [walk, ← List.map_eq_flatMap]

theorem archivesAt_directory :
    (archivesAt listing ⟨path, route, .directory⟩).map (·.path)
      = (archivesListed listing route).map fun entry => under path entry.1 := by
  have hself : Found.isArchive ⟨path, route, .directory⟩ = false := rfl
  have hchild : Found.isArchive ∘ Found.child ⟨path, route, .directory⟩
      = fun entry => entry.2 == .file && isArchiveName entry.1 := by
    funext entry
    simp [Found.isArchive, Found.child]
  rw [archivesAt, walk_directory, List.filter_cons_of_neg (by simp [hself]),
    List.filter_map, hchild, List.map_map]
  rfl

theorem mem_archivesAt_directory {found : String} :
    found ∈ (archivesAt listing ⟨path, route, .directory⟩).map (·.path)
      ↔ ∃ name, (name, .file) ∈ listing.entries route ∧ HasArchiveExtension name
        ∧ found = under path name := by
  rw [archivesAt_directory, List.mem_map]
  constructor
  · intro hfound
    obtain ⟨⟨name, kind⟩, hmem, rfl⟩ := hfound
    obtain ⟨hfile, hname, -⟩ := (mem_archivesListed listing route).mp hmem
    exact ⟨name, hfile, hname, rfl⟩
  · intro hlisted
    obtain ⟨name, hfile, hname, rfl⟩ := hlisted
    exact ⟨(name, .file), (mem_archivesListed listing route).mpr ⟨hfile, hname, rfl⟩, rfl⟩

/-- Distinct names in a directory have distinct paths. -/
theorem under_injective : Function.Injective (under path) := by
  intro name name' h
  unfold under at h
  split at h
  all_goals exact (String.append_right_inj _).mp h

theorem nodup_archivesAt_directory :
    ((archivesAt listing ⟨path, route, .directory⟩).map (·.path)).Nodup := by
  have hnames : ((archivesListed listing route).map (·.1)).Nodup :=
    (listing.distinct route).sublist (List.filter_sublist.map _)
  have hpaths := hnames.map (under_injective path)
  rw [archivesAt_directory]
  rwa [List.map_map] at hpaths

theorem perm_archivesAt_directory {other : Listing}
    (h : ∀ route, (other.entries route).Perm (listing.entries route)) :
    ((archivesAt other ⟨path, route, .directory⟩).map (·.path)).Perm
      ((archivesAt listing ⟨path, route, .directory⟩).map (·.path)) := by
  rw [archivesAt_directory, archivesAt_directory]
  exact ((h route).filter _).map _

/-! ## The order of paths -/

/-- A path is determined by its steps. -/
theorem steps_injective : Function.Injective steps := by
  intro a b h
  have hpieces : pieces '/' a.toList = pieces '/' b.toList :=
    List.map_injective_iff.mpr (fun _ _ hpiece => String.ofList_injective hpiece) h
  rw [← String.toList_inj, ← join_pieces '/' a.toList, hpieces, join_pieces]

theorem isOrdered_iff {a b : String} : isOrdered a b = true ↔ ¬steps b < steps a := by
  simp [isOrdered]

theorem isOrdered_trans {a b c : String} (hab : isOrdered a b = true) (hbc : isOrdered b c = true) :
    isOrdered a c = true := by
  rw [isOrdered_iff, not_lt] at *
  exact hab.trans hbc

theorem isOrdered_total (a b : String) : (isOrdered a b || isOrdered b a) = true := by
  rw [Bool.or_eq_true, isOrdered_iff, isOrdered_iff, not_lt, not_lt]
  exact le_total _ _

theorem isOrdered_antisymm {a b : String} (hab : isOrdered a b = true)
    (hba : isOrdered b a = true) :
    a = b := by
  rw [isOrdered_iff, not_lt] at hab hba
  exact steps_injective (hab.antisymm hba)

theorem pairwise_mergeSort (paths : List String) :
    (paths.mergeSort isOrdered).Pairwise fun a b => isOrdered a b = true := by
  have htrans : ∀ a b c, isOrdered a b = true → isOrdered b c = true → isOrdered a c = true :=
    fun _ _ _ => isOrdered_trans
  exact List.pairwise_mergeSort htrans isOrdered_total paths

/-- Sorting distinct paths yields a strictly increasing list. -/
theorem pairwise_lt_mergeSort {paths : List String} (h : paths.Nodup) :
    (paths.mergeSort isOrdered).Pairwise fun a b => steps a < steps b := by
  have hnodup : (paths.mergeSort isOrdered).Nodup :=
    (List.mergeSort_perm paths isOrdered).nodup_iff.mpr h
  refine ((pairwise_mergeSort paths).and hnodup).imp ?_
  intro a b h
  obtain ⟨hordered, hne⟩ := h
  rw [isOrdered_iff, not_lt] at hordered
  exact hordered.lt_of_ne (steps_injective.ne hne)

/-- Permuted lists of paths have the same sorted list. -/
theorem mergeSort_congr {paths other : List String} (h : other.Perm paths) :
    other.mergeSort isOrdered = paths.mergeSort isOrdered := by
  refine List.Perm.eq_of_pairwise (fun a b _ _ => isOrdered_antisymm) (pairwise_mergeSort other)
    (pairwise_mergeSort paths) ?_
  exact (List.mergeSort_perm other isOrdered).trans
    (h.trans (List.mergeSort_perm paths isOrdered).symm)

/-! ## The archives of an input -/

/-- The archives of an input do not depend on the order of directory listings. -/
theorem archivePaths_congr {other : Listing}
    (h : ∀ route, (other.entries route).Perm (listing.entries route)) (t : Tree) (place : Route)
    (input : String) : archivePaths t place input other = archivePaths t place input listing := by
  unfold archivePaths
  split
  next => rfl
  next => rfl
  next route _ => rw [mergeSort_congr (perm_archivesAt_directory listing input route h)]

theorem run_congr {other : Listing}
    (h : ∀ route, (other.entries route).Perm (listing.entries route))
    (t : Tree) (place : Route) (words : List String) (pools : Pools) :
    run t place words pools other = run t place words pools listing := by
  unfold run
  split
  next => rfl
  next options _ => rw [archivePaths_congr listing h]

/-- **Archives of an input.** For a directory, the archives are exactly the regular files directly
inside it with the extension `osz`, in strictly increasing order; for a file, the file itself. The
result of a run does not depend on the order of the directory listing. -/
theorem archivePaths_exact (t : Tree) (place : Route) (input : String) (listing : Listing) :
    (∀ route content, t.findPath place input = .ok (route, .file content)
      → archivePaths t place input listing = .ok [input])
    ∧ (∀ route, t.findPath place input = .ok (route, .directory)
      → ∃ paths, archivePaths t place input listing = .ok paths
        ∧ (∀ path, path ∈ paths ↔ ∃ name, (name, .file) ∈ listing.entries route
          ∧ HasArchiveExtension name ∧ path = under input name)
        ∧ paths.Pairwise fun a b => steps a < steps b)
    ∧ ∀ other : Listing, (∀ route, (other.entries route).Perm (listing.entries route))
      → archivePaths t place input other = archivePaths t place input listing
        ∧ ∀ words pools, run t place words pools other = run t place words pools listing := by
  refine ⟨?_, ?_, ?_⟩
  · intro route content hfile
    simp only [archivePaths, hfile]
  · intro route hdirectory
    refine ⟨((archivesAt listing ⟨input, route, .directory⟩).map (·.path)).mergeSort isOrdered,
      ?_, ?_, ?_⟩
    · simp only [archivePaths, hdirectory]
    · intro path
      rw [List.mem_mergeSort, mem_archivesAt_directory]
    · exact pairwise_lt_mergeSort (nodup_archivesAt_directory listing input route)
  · intro other horder
    exact ⟨archivePaths_congr listing horder t place input, run_congr listing horder t place⟩

/-- A directory listing with two archives and several other items. -/
def crowd : Listing where
  entries
    | ["in"] => [("b.osz", .file), ("link.osz", .link), (".osz", .file), ("sub.osz", .directory),
      ("pipe.osz", .other), ("A.OSZ", .file), ("osz", .file)]
    | ["in", "sub.osz"] => [("c.osz", .file)]
    | _ => []
  distinct route := by split <;> decide

/-- The listing with the items of each directory reversed. -/
def reversed (listing : Listing) : Listing where
  entries route := (listing.entries route).reverse
  distinct route := by
    rw [List.map_reverse, List.nodup_reverse]
    exact listing.distinct route

/-- A tree with the listed directory and a file. -/
def crowdTree : Tree := (Tree.empty.put ["in"] .directory).put ["notes.txt"] (.file .empty)

theorem archivePaths_exact_of_crowd :
    crowdTree.findPath [] "in" = .ok (["in"], .directory)
      ∧ crowdTree.findPath [] "notes.txt" = .ok (["notes.txt"], .file .empty)
      ∧ (∀ route, ((reversed crowd).entries route).Perm (crowd.entries route))
      ∧ archivePaths crowdTree [] "notes.txt" crowd = .ok ["notes.txt"]
      ∧ (∃ paths, archivePaths crowdTree [] "in" crowd = .ok paths
        ∧ (∀ path, path ∈ paths ↔ path = "in/A.OSZ" ∨ path = "in/b.osz")
        ∧ paths.Pairwise fun a b => steps a < steps b)
      ∧ archivePaths crowdTree [] "in" (reversed crowd) = archivePaths crowdTree [] "in" crowd
      ∧ ∀ words pools,
        run crowdTree [] words pools (reversed crowd) = run crowdTree [] words pools crowd := by
  have hdirectory : crowdTree.findPath [] "in" = .ok (["in"], .directory) := by decide +kernel
  have hfile : crowdTree.findPath [] "notes.txt" = .ok (["notes.txt"], .file .empty) := by
    decide +kernel
  have horder : ∀ route, ((reversed crowd).entries route).Perm (crowd.entries route) :=
    fun route => List.reverse_perm _
  obtain ⟨-, hlisted, hany⟩ := archivePaths_exact crowdTree [] "in" crowd
  obtain ⟨paths, hpaths, hmem, hsorted⟩ := hlisted _ hdirectory
  refine ⟨hdirectory, hfile, horder, ?_, ⟨paths, hpaths, ?_, hsorted⟩, hany _ horder⟩
  · exact (archivePaths_exact crowdTree [] "notes.txt" crowd).1 _ _ hfile
  · intro path
    rw [hmem]
    constructor
    · intro hpath
      obtain ⟨name, hname, hext, rfl⟩ := hpath
      simp only [crowd, List.mem_cons, Prod.mk.injEq, List.not_mem_nil, or_false] at hname
      rcases hname with ⟨rfl, -⟩ | ⟨-, h⟩ | ⟨rfl, -⟩ | ⟨-, h⟩ | ⟨-, h⟩ | ⟨rfl, -⟩ | ⟨rfl, -⟩
      · exact .inr (by decide +kernel)
      · cases h
      · exact absurd hext (by decide +kernel)
      · cases h
      · cases h
      · exact .inl (by decide +kernel)
      · exact absurd hext (by decide +kernel)
    · intro hpath
      rcases hpath with rfl | rfl
      · exact ⟨"A.OSZ", by decide, by decide +kernel, by decide +kernel⟩
      · exact ⟨"b.osz", by decide, by decide +kernel, by decide +kernel⟩

end Beatmap.Command
