import Beatmap.Proofs.Accounting
import Beatmap.Proofs.Directories

/-!
# Placing files in the working directory

Placing a file of a plain path adds directories inside the working directory and then either writes
the file or changes nothing else (`place_cases`). All paths of entries are plain if their names are
not verbatim (`Entry.IsOrdinary`).

`Holds` is the invariant that relates the tree to the list of files written so far. Both outcomes of
placing a file preserve it (`Holds.grown`, `Holds.put`), so it holds for every extraction
(`holds_ofEntries`).
-/

namespace Beatmap.Archive

open Beatmap.Files
open Beatmap.Files.Tree (Grown HasWay)

namespace EntryPath

theorem leadsOn_of_isPlainStep {step : String} (h : IsPlainStep step.toList) : LeadsOn step :=
  ⟨fun e => h.1 (by simp [e]), fun e => h.2.1 (by simp [e]), fun e => h.2.2.1 (by simp [e])⟩

theorem IsPlain.leadsOn {path : EntryPath} (h : IsPlain path) : ∀ step ∈ path, LeadsOn step :=
  fun step hs => leadsOn_of_isPlainStep (h step hs)

theorem IsPlain.not_isAbsolute {path : EntryPath} (h : IsPlain path) : path.isAbsolute = false := by
  unfold isAbsolute
  cases path with
  | nil => rfl
  | cons step rest =>
    have := (h.leadsOn step (List.mem_cons_self ..)).1
    simpa using this

/-- The path of the parent directory is not longer than the path. -/
theorem utf8ByteSize_text_dropLast_le (path : EntryPath) :
    (EntryPath.text path.dropLast).utf8ByteSize ≤ path.text.utf8ByteSize := by
  induction path with
  | nil => exact Nat.le_refl _
  | cons first rest ih =>
    cases rest with
    | nil => simp [EntryPath.text]
    | cons second rest =>
      have hstep : ∀ more : EntryPath, EntryPath.text (first :: second :: more)
          = first ++ "/" ++ EntryPath.text (second :: more) := by
        intro more
        exact String.intercalate_cons_cons
      cases rest with
      | nil =>
        rw [hstep]
        simp only [List.dropLast_cons_cons, List.dropLast_singleton, EntryPath.text,
          String.intercalate_singleton, String.utf8ByteSize_append]
        omega
      | cons third rest =>
        rw [List.dropLast_cons_cons] at ih ⊢
        rw [List.dropLast_cons_cons, hstep, hstep]
        simp only [String.utf8ByteSize_append] at ih ⊢
        omega

end EntryPath

open EntryPath (IsPlain)

theorem originOf_of_isPlain {path : EntryPath} (h : IsPlain path) : originOf path = workplace := by
  rw [originOf, h.not_isAbsolute, if_neg Bool.false_ne_true]

theorem wayTo_of_isPlain {path : EntryPath} (h : IsPlain path) : wayTo path = path.dropLast := by
  have hidle : path.filter (!isIdle ·) = path :=
    List.filter_eq_self.mpr fun step hs => by
      rw [EntryPath.isIdle_of_isPlainStep (h step hs)]
      rfl
  rw [wayTo, hidle]

/-- If a directory on the way to a file exceeds the maximal length, so does the path of the file. -/
theorem isTooFar_of_goBack {path : EntryPath} (h : IsPlain path)
    (hfar : isTooFar path (goBack path) = true) : isTooFar path path = true := by
  have hle := EntryPath.utf8ByteSize_text_dropLast_le path
  rw [EntryPath.goBack_of_isPlain h] at hfar
  simp only [isTooFar, decide_eq_true_eq] at hfar ⊢
  omega

/-- A file that cannot be written does not exist, so removing it has no effect. -/
theorem removeEntry_of_error {t : Tree} {path : EntryPath} {content : ByteArray} {refusal : Refusal}
    (h : writeEntry t path content = .error refusal) : removeEntry t path = t := by
  unfold writeEntry at h
  unfold removeEntry
  split
  next => rfl
  next hfar =>
    rw [if_neg hfar] at h
    cases hp : t.placeToWrite (originOf path) path with
    | error refusal => simp [Tree.removeFile, hp]
    | ok route =>
      rw [Tree.writeFile, hp] at h
      cases h

theorem writeEntry_eq_ok {t t' : Tree} {path : EntryPath} {content : ByteArray} (h : IsPlain path)
    (hw : writeEntry t path content = .ok t') :
    path ≠ [] ∧ t.HasWay workplace path.dropLast ∧ t.node? (workplace ++ path) ≠ some .directory
      ∧ t' = t.put (workplace ++ path) (.file content) := by
  unfold writeEntry at hw
  split at hw
  next => cases hw
  next =>
    rw [Tree.writeFile, originOf_of_isPlain h] at hw
    cases hp : t.placeToWrite workplace path with
    | error refusal =>
      rw [hp] at hw
      cases hw
    | ok route =>
      rw [hp] at hw
      cases hw
      obtain ⟨hne, rfl, hway, hnode⟩ := Tree.placeToWrite_eq_ok h.leadsOn hp
      exact ⟨hne, hway, hnode, rfl⟩

theorem makeWay_of_isPlain (t : Tree) {path : EntryPath} (h : IsPlain path) :
    makeWay t path = if isTooFar path (goBack path) then (t, some .nameTooLong)
      else t.createDirectories workplace path.dropLast := by
  rw [makeWay, originOf_of_isPlain h, wayTo_of_isPlain h]

/-- If the directories of a file cannot be created, removing the file has no effect. -/
theorem removeEntry_makeWay {t : Tree} {path : EntryPath} (h : IsPlain path)
    (hwork : t.node? workplace = some .directory) (hmake : (makeWay t path).2 ≠ none) :
    removeEntry (makeWay t path).1 path = (makeWay t path).1 := by
  rw [makeWay_of_isPlain t h] at hmake ⊢
  unfold removeEntry
  by_cases hfar : isTooFar path (goBack path) = true
  · rw [if_pos (isTooFar_of_goBack h hfar)]
  · rw [if_neg hfar] at hmake ⊢
    rw [originOf_of_isPlain h, Tree.removeFile_of_createDirectories h.leadsOn hwork hmake, ite_self]

/-- A file of a plain path is written, or the attempt fails and nothing is removed. -/
theorem place_of_isPlain {t : Tree} {path : EntryPath} (content : ByteArray) (h : IsPlain path)
    (hwork : t.node? workplace = some .directory) :
    place t path content = match makeWay t path with
      | (grown, some refusal) => (grown, some refusal)
      | (grown, none) =>
        match writeEntry grown path content with
        | .error refusal => (grown, some refusal)
        | .ok written => (written, none) := by
  unfold place
  cases hmake : makeWay t path with
  | mk grown refusal? =>
    cases refusal? with
    | some refusal =>
      have hremove := removeEntry_makeWay h hwork (by rw [hmake]; simp)
      rw [hmake] at hremove
      dsimp only at hremove ⊢
      rw [hremove]
    | none =>
      dsimp only
      cases hwrite : writeEntry grown path content with
      | error refusal => dsimp only; rw [removeEntry_of_error hwrite]
      | ok written => rfl

theorem grown_makeWay {t : Tree} {path : EntryPath} (h : IsPlain path)
    (hwork : t.node? workplace = some .directory) : Grown workplace t (makeWay t path).1 := by
  rw [makeWay_of_isPlain t h]
  split
  next => exact .refl workplace t
  next =>
    exact (Tree.createOnWay_spec false (fun step hs => h.leadsOn step (List.dropLast_subset _ hs))
      hwork).1

/-- The effect of placing a file: directories are added, and the file is written or nothing else
changes. -/
theorem place_cases {t : Tree} {path : EntryPath} (content : ByteArray) (h : IsPlain path)
    (hwork : t.node? workplace = some .directory) :
    ∃ grown, Grown workplace t grown
      ∧ ((∃ refusal, place t path content = (grown, some refusal))
        ∨ path ≠ [] ∧ grown.HasWay workplace path.dropLast
          ∧ grown.node? (workplace ++ path) ≠ some .directory
          ∧ place t path content = (grown.put (workplace ++ path) (.file content), none)) := by
  have hgrown := grown_makeWay h hwork
  rw [place_of_isPlain content h hwork]
  cases hmake : makeWay t path with
  | mk grown refusal? =>
    rw [hmake] at hgrown
    refine ⟨grown, hgrown, ?_⟩
    cases refusal? with
    | some refusal => exact Or.inl ⟨refusal, rfl⟩
    | none =>
      cases hwrite : writeEntry grown path content with
      | error refusal => exact Or.inl ⟨refusal, by simp only [hwrite]⟩
      | ok written =>
        obtain ⟨hne, hhas, hnode, rfl⟩ := writeEntry_eq_ok h hwrite
        exact Or.inr ⟨hne, hhas, hnode, by simp only [hwrite]⟩

/-! ## The invariant of the working directory -/

/-- The route is strictly below the working directory. -/
def IsInside (route : Route) : Prop := ∃ path, path ≠ [] ∧ route = workplace ++ path

/-- The content written last to a path. -/
def lastContent? (files : List (EntryPath × ByteArray)) (path : EntryPath) : Option ByteArray :=
  (files.filter (·.1 == path)).getLast?.map (·.2)

theorem lastContent?_concat_self (files : List (EntryPath × ByteArray)) (path : EntryPath)
    (content : ByteArray) : lastContent? (files ++ [(path, content)]) path = some content := by
  simp [lastContent?]

theorem lastContent?_concat_of_ne (files : List (EntryPath × ByteArray)) {path other : EntryPath}
    (content : ByteArray) (h : other ≠ path) :
    lastContent? (files ++ [(path, content)]) other = lastContent? files other := by
  have hne : (path == other) = false := by simpa using Ne.symm h
  simp [lastContent?, hne]

theorem lastContent?_isSome {files : List (EntryPath × ByteArray)} {file : EntryPath × ByteArray}
    (h : file ∈ files) : ∃ content, lastContent? files file.1 = some content := by
  have hmem : file ∈ files.filter (·.1 == file.1) := by simp [h]
  cases hl : (files.filter (·.1 == file.1)).getLast? with
  | none =>
    rw [List.getLast?_eq_none_iff.mp hl] at hmem
    cases hmem
  | some last => exact ⟨last.2, by rw [lastContent?, hl]; rfl⟩

/-- The tree is the empty working directory after writing the given files in order. -/
structure Holds (t : Tree) (files : List (EntryPath × ByteArray)) : Prop where
  plain : ∀ file ∈ files, file.1 ≠ [] ∧ IsPlain file.1
  /-- The files are the contents written last to each path. -/
  held : ∀ route content, t.node? route = some (.file content)
    ↔ ∃ path, route = workplace ++ path ∧ lastContent? files path = some content
  /-- All proper prefixes of a file path are directories. -/
  above : ∀ file ∈ files, t.HasWay workplace file.1.dropLast
  outside : ∀ route, ¬IsInside route → t.node? route = emptyWorkplace.node? route

theorem not_isInside_workplace : ¬IsInside workplace := by
  rintro ⟨path, hne, h⟩
  exact hne (List.self_eq_append_right.mp h)

theorem Holds.workplace {t : Tree} {files : List (EntryPath × ByteArray)} (h : Holds t files) :
    t.node? workplace = some .directory := by
  rw [h.outside _ not_isInside_workplace]
  rfl

theorem holds_emptyWorkplace : Holds emptyWorkplace [] where
  plain := by simp
  held route content := by
    refine iff_of_false (fun hf => ?_) (by simp [lastContent?])
    by_cases hwork : route = Archive.workplace
    · rw [hwork] at hf
      cases hf
    · rw [emptyWorkplace, Tree.node?_put_of_ne _ hwork] at hf
      by_cases htmp : route = ["tmp"]
      · rw [htmp] at hf
        cases hf
      · rw [Tree.node?_put_of_ne _ htmp, Tree.node?] at hf
        split at hf <;> cases hf
  above := by simp
  outside _ _ := rfl

/-- Adding directories preserves the invariant. -/
theorem Holds.grown {t t' : Tree} {files : List (EntryPath × ByteArray)} (h : Holds t files)
    (hg : Grown Archive.workplace t t') : Holds t' files where
  plain := h.plain
  held route content := (hg.file_iff route content).trans (h.held route content)
  above file hf := hg.hasWay (h.above file hf)
  outside route ho := by
    by_cases hp : Archive.workplace <+: route
    · obtain ⟨path, rfl⟩ := hp
      have hnil : path = [] := by
        by_contra hne
        exact ho ⟨path, hne, rfl⟩
      subst hnil
      rw [List.append_nil, hg.kept _ _ h.workplace]
      rfl
    · rw [hg.node?_eq hp, h.outside route ho]

/-- Writing a file does not replace a directory, so the paths to other files are preserved. -/
theorem hasWay_put_file {t : Tree} {place : Route} {steps : List String} {route : Route}
    {content : ByteArray} (h : t.HasWay place steps) (hr : t.node? route ≠ some .directory) :
    (t.put route (.file content)).HasWay place steps := by
  intro before hb
  have hd := h before hb
  have hne : place ++ before ≠ route := by
    rintro rfl
    exact hr hd
  rw [Tree.node?_put_of_ne t hne, hd]

/-- Writing a file preserves the invariant. -/
theorem Holds.put {t : Tree} {files : List (EntryPath × ByteArray)} {path : EntryPath}
    {content : ByteArray} (h : Holds t files) (hne : path ≠ []) (hp : IsPlain path)
    (hway : t.HasWay Archive.workplace path.dropLast)
    (hnode : t.node? (Archive.workplace ++ path) ≠ some .directory) :
    Holds (t.put (Archive.workplace ++ path) (.file content)) (files ++ [(path, content)]) where
  plain := by
    intro file hf
    rcases List.mem_append.mp hf with hf | hf
    · exact h.plain file hf
    · rw [List.mem_singleton.mp hf]
      exact ⟨hne, hp⟩
  held route found := by
    by_cases hr : route = Archive.workplace ++ path
    · -- Whatever was put there before has been replaced.
      subst hr
      rw [Tree.node?_put_self t (by simp [hne])]
      constructor
      · intro hf
        cases hf
        exact ⟨path, rfl, lastContent?_concat_self ..⟩
      · rintro ⟨other, he, hl⟩
        rw [← List.append_cancel_left he, lastContent?_concat_self] at hl
        cases hl
        rfl
    · rw [Tree.node?_put_of_ne t hr, h.held]
      have hother : ∀ other, route = Archive.workplace ++ other
          → lastContent? (files ++ [(path, content)]) other = lastContent? files other := by
        rintro other rfl
        exact lastContent?_concat_of_ne _ _ fun he => hr (he ▸ rfl)
      constructor
      · rintro ⟨other, he, hl⟩
        exact ⟨other, he, (hother other he).trans hl⟩
      · rintro ⟨other, he, hl⟩
        exact ⟨other, he, (hother other he).symm.trans hl⟩
  above := by
    intro file hf
    refine hasWay_put_file ?_ hnode
    rcases List.mem_append.mp hf with hf | hf
    · exact h.above file hf
    · rw [List.mem_singleton.mp hf]
      exact hway
  outside route ho := by
    have hr : route ≠ Archive.workplace ++ path := fun he => ho ⟨path, hne, he⟩
    rw [Tree.node?_put_of_ne t hr, h.outside route ho]

/-- No file path is a proper prefix of another. -/
theorem Holds.eq_of_prefix {t : Tree} {files : List (EntryPath × ByteArray)} (h : Holds t files)
    {file other : EntryPath × ByteArray} (hf : file ∈ files) (ho : other ∈ files)
    (hp : file.1 <+: other.1) : file.1 = other.1 := by
  by_contra hne
  have hway : file.1 <+: other.1.dropLast := by
    have hsplit := List.dropLast_concat_getLast (h.plain other ho).1
    rw [← hsplit, List.prefix_concat_iff, hsplit] at hp
    exact hp.resolve_left hne
  obtain ⟨content, hl⟩ := lastContent?_isSome hf
  have hfile := (h.held _ content).mpr ⟨file.1, rfl, hl⟩
  rw [h.above other ho file.1 hway] at hfile
  cases hfile

/-! ## Extractions -/

/-- An entry is ordinary unless its path comes from a verbatim name. -/
def Entry.IsOrdinary : Entry → Prop
  | .file path _ _ => ∃ name, EntryPath.isVerbatim name = false ∧ EntryPath.ofName? name = some path
  | _ => True

namespace Extraction

theorem holds_take {x : Extraction} (h : Holds x.tree x.files) {entry : Entry}
    (ho : entry.IsOrdinary) : Holds (x.take entry).tree (x.take entry).files := by
  cases hx : x.panic? with
  | some panic => rwa [take_of_panic (by simp [hx])]
  | none =>
    cases hsize : entry.isOversized with
    | true => rwa [take_of_isOversized hx hsize]
    | false =>
      rw [files_take hx hsize, take_of_not_isOversized hx hsize]
      dsimp only
      cases entry with
      | unopenable defect | directory | astray name | damaged path declared defect =>
        -- Neither the tree nor the list of files changes.
        simpa [extractEntry, Result.file?] using h
      | file path declared content =>
        obtain ⟨name, hv, hname⟩ := ho
        have hplain := EntryPath.isPlain_of_ofName? hv hname
        obtain ⟨grown, hg, ⟨refusal, hplace⟩ | ⟨hne, hway, hnode, hplace⟩⟩ :=
          place_cases content hplain h.workplace
        · simpa [extractEntry, hplace, Result.file?] using h.grown hg
        · simpa [extractEntry, hplace, Result.file?] using (h.grown hg).put hne hplain hway hnode

theorem holds_ofEntries (entries : List Entry) (h : ∀ entry ∈ entries, entry.IsOrdinary) :
    Holds (ofEntries entries).tree (ofEntries entries).files := by
  induction entries using List.reverseRecOn with
  | nil => exact holds_emptyWorkplace
  | append_singleton before last ih =>
    rw [ofEntries_concat]
    have hbefore := ih fun entry hm => h entry (List.mem_append_left _ hm)
    exact holds_take hbefore (h last (by simp))

end Extraction

end Beatmap.Archive
