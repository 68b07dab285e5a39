import Beatmap.Command.Run
import Beatmap.Proofs.Reports
import Beatmap.Proofs.Workplace
import Beatmap.Proofs.Writing
import Mathlib.Data.List.Forall2

/-!
# Whole runs

A run processes the archives of an input in order, each in the tree that the previous one leaves
(`visits`), and then writes the list of failures and the report. The only state that is passed on is
the tree; archives with ordinary entries do not change it, so that each of them has the result that
it has alone (`visits_eq_map`).

If processing an archive panics (`Panics`), the run ends there with `panicExit` and writes no output
(`run_of_panic`). Otherwise, if both outputs can be written (`CanWrite`), the run succeeds and its
outputs account for each archive (`IsAccount`): the report has one item for each archive, which
represents its result, and the summary and the list of failures agree with the items.

Each output is one step that writes at one place (`Wrote`), so all other files are unchanged.
-/

namespace Beatmap.Command

open Beatmap.Files
open Beatmap.Files.Tree (WritesAt SameDirectories Grown)
open Beatmap.Archive (EntryPath HasRoom)
open Beatmap.Processed (HasOrdinaryEntries)

/-! ## Archives of a run -/

section Archives

variable (place : Route)
  (entriesOf : ByteArray → Except Archive.Defect (List Archive.Entry)) (t : Tree)

/-- The result for the archive at a path, without a pool. -/
def resultAt (path : String) : Except Abort Processed :=
  (Processed.ofFile t place path none entriesOf).2

/-- The tree after processing the archive at a path. -/
def treeAt (path : String) : Tree := (Processed.ofFile t place path none entriesOf).1

/-- Processing the archive at a path panics: the working directory can be created, and the archive
can be opened and has an oversized entry. -/
def Panics (path : String) : Prop :=
  (∃ work, Archive.openWorkplace t = .ok work)
    ∧ ∃ archive entries, t.readPath place path = .ok archive ∧ entriesOf archive = .ok entries
      ∧ ∃ entry ∈ entries, entry.isOversized = true

/-- Processing the archive at a path fails. -/
def fails (path : String) : Bool :=
  match resultAt place entriesOf t path with
  | .error (.failed _) => true
  | _ => false

/-- The tree after processing the archives at the given paths in order. -/
def treeAfter (paths : List String) : Tree := paths.foldl (treeAt place entriesOf) t

/-- Each path with the tree in which a run processes its archive. -/
def visits (t : Tree) : List String → List (Tree × String)
  | [] => []
  | path :: rest => (t, path) :: visits (treeAt place entriesOf t path) rest

/-- Processing some archive of a run fails. -/
def anyFails (paths : List String) : Bool :=
  (visits place entriesOf t paths).any fun v => fails place entriesOf v.1 v.2

end Archives

/-! ## Outputs -/

/-- The tree after creating the parent directories of a file. -/
def withWay (t : Tree) (place : Route) : Option String → Tree
  | some path => (t.createParents place path).1
  | none => t

theorem grown_withWay (t : Tree) (place : Route) (path? : Option String) :
    Grown [] t (withWay t place path?) := by
  cases path? with
  | none => exact .refl [] t
  | some path => exact Tree.grown_createParents t place path

/-- The path at which a run writes a list of failures: none if there are no failures. -/
def listPath? (options : Options) (failing : Bool) : Option String :=
  if failing then options.failures else none

/-- The outputs of a run can be written after the archives are processed, at different routes: the
list of failures after its parent directories are created, and the report without creating
directories. -/
structure CanWrite (t : Tree) (place : Route) (options : Options) (failing : Bool)
    (listRoute reportRoute : Route) : Prop where
  way : ∀ path, options.failures = some path → (t.createParents place path).2 = none
  list : ∀ path, options.failures = some path
    → (withWay t place options.failures).WritesAt place path listRoute
  report : ∀ path, options.report = some path
    → (withWay t place (listPath? options failing)).WritesAt place path reportRoute
  distinct : reportRoute ≠ listRoute

variable {t : Tree} {place listRoute reportRoute : Route} {options : Options} {failing : Bool}

/-- A sufficient condition for `CanWrite` that does not depend on the archives: the report can be
written in the initial tree, and its route is not among the directories created for the list of
failures. -/
theorem canWrite_of_writesAt
    (hway : ∀ path, options.failures = some path → (t.createParents place path).2 = none)
    (hlist : ∀ path, options.failures = some path
      → (withWay t place options.failures).WritesAt place path listRoute)
    (hreport : ∀ path, options.report = some path → t.WritesAt place path reportRoute)
    (hfree : (withWay t place options.failures).node? reportRoute ≠ some .directory)
    (hdistinct : reportRoute ≠ listRoute) (failing : Bool) :
    CanWrite t place options failing listRoute reportRoute where
  way := hway
  list := hlist
  report path hp := by
    cases failing with
    | true => exact (hreport path hp).mono ((grown_withWay t place _).kept · .directory) hfree
    | false => exact hreport path hp
  distinct := hdistinct

/-- The trees differ at most by a file at one route. -/
structure Wrote (route : Route) (t t' : Tree) : Prop where
  same : SameDirectories t t'
  others : ∀ other, other ≠ route → t'.node? other = t.node? other

theorem Wrote.refl (route : Route) (t : Tree) : Wrote route t t :=
  ⟨fun _ => Iff.rfl, fun _ _ => rfl⟩

theorem wrote_put {t : Tree} {place route : Route} {path : String} (h : t.WritesAt place path route)
    (content : ByteArray) : Wrote route t (t.put route (.file content)) where
  same := h.sameDirectories content
  others _ ho := Tree.node?_put_of_ne t ho _

/-- The lines of the list of failures as bytes. -/
def listing (lines : List String) : ByteArray := (String.join (lines.map (· ++ "\n"))).toUTF8

/-- The list of failures is appended to the existing file. -/
theorem appendFailures_of_writesAt {path : String} {lines : List String} (hne : lines ≠ [])
    (hway : (t.createParents place path).2 = none)
    (hw : (t.createParents place path).1.WritesAt place path listRoute) :
    appendFailures t place path lines
      = ((t.createParents place path).1.put listRoute
        (.file (t.contentAt listRoute ++ listing lines)), none) := by
  have hgrown := Tree.grown_createParents t place path
  unfold appendFailures
  rw [if_neg hne]
  cases hmake : t.createParents place path with
  | mk grown refusal? =>
    rw [hmake] at hway hw hgrown
    dsimp only at hway hw hgrown
    subst hway
    simp only [Tree.updatePath_of_writesAt hw, hgrown.contentAt]
    rfl

theorem writeReport_of_writesAt {path text : String} (h : t.WritesAt place path reportRoute) :
    writeReport t place path text = (t.put reportRoute (.file text.toUTF8), none) := by
  rw [writeReport, Tree.updatePath_of_writesAt h]

/-- The effect of writing the list of failures. -/
theorem listStep_spec (h : CanWrite t place options failing listRoute reportRoute)
    {lines : List String} (hlines : lines = [] ↔ failing = false) :
    ∃ t', writeTo t options.failures (appendFailures t place · lines) = (t', none)
      ∧ Wrote listRoute (withWay t place (listPath? options failing)) t'
      ∧ (lines = [] → t' = t)
      ∧ ∀ path, options.failures = some path → lines ≠ []
        → t'.WritesAt place path listRoute
          ∧ t'.node? listRoute = some (.file (t.contentAt listRoute ++ listing lines)) := by
  cases hpath : options.failures with
  | none =>
    have hready : withWay t place (listPath? options failing) = t := by
      simp [listPath?, hpath, withWay]
    rw [hready]
    exact ⟨t, rfl, .refl listRoute t, fun _ => rfl, by simp⟩
  | some path =>
    by_cases hne : lines = []
    · have hready : withWay t place (listPath? options failing) = t := by
        simp [listPath?, hlines.mp hne, withWay]
      rw [hready]
      exact ⟨t, by simp [writeTo, appendFailures, hne], .refl listRoute t, fun _ => rfl,
        fun _ _ h => absurd hne h⟩
    · have hready : withWay t place (listPath? options failing)
          = (t.createParents place path).1 := by
        have hfailing : failing = true := by
          rw [← Bool.not_eq_false, ← hlines]
          exact hne
        rw [listPath?, if_pos hfailing, hpath, withWay]
      have hw := h.list path hpath
      rw [hpath, withWay] at hw
      refine ⟨_, appendFailures_of_writesAt hne (h.way path hpath) hw, ?_,
        fun he => absurd he hne, ?_⟩
      · rw [hready]
        exact wrote_put hw _
      · rintro other ho -
        cases ho
        exact ⟨(hw.sameDirectories _).writesAt hw, Tree.node?_put_self _ hw.node?.1 _⟩

/-- The effect of writing the report. -/
theorem reportStep_spec (text : String)
    (h : ∀ path, options.report = some path → t.WritesAt place path reportRoute) :
    ∃ t', writeTo t options.report (writeReport t place · text) = (t', none)
      ∧ Wrote reportRoute t t'
      ∧ (options.report = none → t' = t)
      ∧ ∀ path, options.report = some path → t'.readPath place path = .ok text.toUTF8 := by
  cases hpath : options.report with
  | none => exact ⟨t, rfl, .refl reportRoute t, fun _ => rfl, by simp⟩
  | some path =>
    have hw := h path hpath
    refine ⟨_, writeReport_of_writesAt hw, wrote_put hw _, by simp, ?_⟩
    rintro other ho
    cases ho
    exact Tree.readPath_of_writesAt ((hw.sameDirectories _).writesAt hw)
      (Tree.node?_put_self t hw.node?.1 _)

/-! ## Accounts of runs -/

/-- The outcome of a run represents the results of the archives at the given paths. The files are
compared with those after the last archive is processed. -/
structure IsAccount (place : Route)
    (entriesOf : ByteArray → Except Archive.Defect (List Archive.Entry)) (t : Tree)
    (options : Options) (paths : List String) (listRoute reportRoute : Route)
    (items : List Json.Value) (outcome : Outcome) : Prop where
  exit : outcome.exit = 0
  /-- There is one item for each archive, which represents the result of processing it. -/
  entries : List.Forall₂ (fun v item => ∃ result : Except Failure Processed,
    resultAt place entriesOf v.1 v.2 = result.mapError .failed
      ∧ IsEntryOf item (lastName v.2) result) (visits place entriesOf t paths) items
  either : ∀ item ∈ items, hasMapset item = !hasError item
  stdout : outcome.stdout = s!"Found {paths.length} .osz files\n" ++ summaryOf items
  total : (items.countP fun item => hasMapset item && !hasProblems item)
    + (items.countP fun item => hasMapset item && hasProblems item) + items.countP hasError
      = paths.length
  report : ∀ path, options.report = some path → ∃ text : String,
    outcome.tree.readPath place path = .ok text.toUTF8
      ∧ Json.parse text.toList = some (.array items)
  /-- The list of failures is extended by one line for each item with an error. -/
  listed : ∀ path, options.failures = some path → items.filterMap failureLine? ≠ []
    → outcome.tree.readPath place path
      = .ok ((treeAfter place entriesOf t paths).contentAt listRoute
        ++ listing (items.filterMap failureLine?))
  lines : (items.filterMap failureLine?).length = items.countP hasError
  /-- Without errors, only the report changes. -/
  quiet : items.filterMap failureLine? = [] → ∀ route,
    (options.report ≠ none → route ≠ reportRoute)
      → outcome.tree.node? route = (treeAfter place entriesOf t paths).node? route
  /-- All other files are unchanged. -/
  elsewhere : ∀ route content, route ≠ listRoute → route ≠ reportRoute →
    (outcome.tree.node? route = some (.file content)
      ↔ (treeAfter place entriesOf t paths).node? route = some (.file content))

/-- The effect of writing the outputs. -/
theorem writeOutputs_spec {tally : Tally} {items : List Json.Value} (ha : tally.AccountsFor items)
    (hfails : items.filterMap failureLine? = [] ↔ failing = false)
    (h : CanWrite t place options failing listRoute reportRoute) :
    ∃ t', writeOutputs t place options tally = (t', none)
      ∧ (∀ path, options.report = some path →
        t'.readPath place path = .ok (Command.report tally.entries.toList).toUTF8)
      ∧ (∀ path, options.failures = some path → items.filterMap failureLine? ≠ [] →
        t'.readPath place path
          = .ok (t.contentAt listRoute ++ listing (items.filterMap failureLine?)))
      ∧ (items.filterMap failureLine? = [] → ∀ route,
        (options.report ≠ none → route ≠ reportRoute) → t'.node? route = t.node? route)
      ∧ ∀ route content, route ≠ listRoute → route ≠ reportRoute →
        (t'.node? route = some (.file content) ↔ t.node? route = some (.file content)) := by
  obtain ⟨t₁, hlist, hwrote, hquiet, hlisted⟩ := listStep_spec h hfails
  obtain ⟨t₂, hreport, hwrote', hquiet', hreported⟩ :=
    reportStep_spec (Command.report tally.entries.toList)
      (fun path hp => hwrote.same.writesAt (h.report path hp))
  refine ⟨t₂, ?_, hreported, ?_, ?_, ?_⟩
  · rw [writeOutputs, ha.failures, hlist]
    exact hreport
  · -- The report is written elsewhere, so it does not matter that it is written later.
    intro path hp hne
    obtain ⟨hw, hnode⟩ := hlisted path hp hne
    refine Tree.readPath_of_writesAt (hwrote'.same.writesAt hw) ?_
    rw [hwrote'.others _ (Ne.symm h.distinct), hnode]
  · intro hnone route hroute
    cases hp : options.report with
    | none => rw [hquiet' hp, hquiet hnone]
    | some path => rw [hwrote'.others _ (hroute (by simp [hp])), hquiet hnone]
  · intro route content hl hr
    rw [hwrote'.others _ hr, hwrote.others _ hl]
    exact (grown_withWay t place _).file_iff route content

/-! ## Processing the archives of a run -/

variable {entriesOf : ByteArray → Except Archive.Defect (List Archive.Entry)}
  {path : String} {paths : List String}

theorem length_visits (t : Tree) (paths : List String) :
    (visits place entriesOf t paths).length = paths.length := by
  induction paths generalizing t with
  | nil => rfl
  | cons path rest ih => rw [visits, List.length_cons, List.length_cons, ih]

/-- Processing an archive panics exactly under the condition `Panics`. -/
theorem resultAt_eq_panicked_iff {panic : Archive.Panic} :
    resultAt place entriesOf t path = .error (.panicked panic) ↔ Panics place entriesOf t path := by
  unfold resultAt Processed.ofFile Panics
  cases t.readPath place path with
  | error refusal => simp
  | ok archive =>
    rw [Processed.ofArchiveIn_eq_panicked_iff]
    simp only [Except.ok.injEq, exists_and_left, exists_eq_left']

/-- In a run, processing an archive does not depend on the pool. -/
theorem ofPath_eq (pool : String → Option Pool) (t : Tree) (path : String) :
    ReportEntry.ofPath place pool entriesOf t path
      = (treeAt place entriesOf t path,
        ReportEntry.ofResult (lastName path) (resultAt place entriesOf t path)) := by
  rw [ReportEntry.ofPath, Processed.ofFile_pool none t place path (pool path)]
  rfl

theorem ofPath_of_panic (pool : String → Option Pool) (h : Panics place entriesOf t path) :
    ReportEntry.ofPath place pool entriesOf t path
      = (treeAt place entriesOf t path, .error .capacityOverflow) := by
  rw [ofPath_eq, resultAt_eq_panicked_iff.mpr h]
  rfl

theorem ofResult_eq_ok (file : String) {result : Except Abort Processed}
    (h : ∀ panic, result ≠ .error (.panicked panic)) :
    ∃ e, ReportEntry.ofResult file result = .ok e ∧ e.file = file
      ∧ result = e.outcome.mapError .failed := by
  match result, h with
  | .ok p, _ => exact ⟨⟨file, .ok p⟩, rfl, rfl, rfl⟩
  | .error (.failed failure), _ => exact ⟨⟨file, .error failure⟩, rfl, rfl, rfl⟩
  | .error (.panicked panic), h => exact absurd rfl (h panic)

theorem ofPath_of_calm (pool : String → Option Pool) (h : ¬Panics place entriesOf t path) :
    ∃ e, ReportEntry.ofPath place pool entriesOf t path = (treeAt place entriesOf t path, .ok e)
      ∧ e.file = lastName path
      ∧ resultAt place entriesOf t path = e.outcome.mapError .failed := by
  have hresult : ∀ panic, resultAt place entriesOf t path ≠ .error (.panicked panic) :=
    fun panic hpanic => h (resultAt_eq_panicked_iff.mp hpanic)
  obtain ⟨e, he, hfile, houtcome⟩ := ofResult_eq_ok (lastName path) hresult
  refine ⟨e, ?_, hfile, houtcome⟩
  rw [ofPath_eq, he]

/-- If no archive panics, the loop over the archives adds an entry for each. -/
theorem addPaths_of_calm (pool : String → Option Pool) (tally : Tally)
    (hcalm : ∀ v ∈ visits place entriesOf t paths, ¬Panics place entriesOf v.1 v.2) :
    ∃ entries : List ReportEntry,
      List.Forall₂ (fun v e => e.file = lastName v.2
        ∧ resultAt place entriesOf v.1 v.2 = e.outcome.mapError .failed)
          (visits place entriesOf t paths) entries
      ∧ Tally.addPaths (ReportEntry.ofPath place pool entriesOf) t tally paths
        = (treeAfter place entriesOf t paths, .ok (entries.foldl Tally.add tally)) := by
  induction paths generalizing t tally with
  | nil => exact ⟨[], .nil, rfl⟩
  | cons path rest ih =>
    obtain ⟨hpath, hrest⟩ := List.forall_mem_cons.mp hcalm
    obtain ⟨e, he, hfile, houtcome⟩ := ofPath_of_calm pool hpath
    obtain ⟨entries, hentries, hloop⟩ := ih (tally.add e) hrest
    refine ⟨e :: entries, .cons ⟨hfile, houtcome⟩ hentries, ?_⟩
    simp only [Tally.addPaths, he, hloop]
    rfl

/-- If an archive panics, the loop ends at the first one that does. -/
theorem addPaths_of_panic (pool : String → Option Pool) (tally : Tally)
    (hpanic : ∃ v ∈ visits place entriesOf t paths, Panics place entriesOf v.1 v.2) :
    ∃ before path after, paths = before ++ path :: after
      ∧ (∀ v ∈ visits place entriesOf t before, ¬Panics place entriesOf v.1 v.2)
      ∧ Panics place entriesOf (treeAfter place entriesOf t before) path
      ∧ Tally.addPaths (ReportEntry.ofPath place pool entriesOf) t tally paths
        = (treeAfter place entriesOf t (before ++ [path]), .error .capacityOverflow) := by
  induction paths generalizing t tally with
  | nil => simp [visits] at hpanic
  | cons path rest ih =>
    by_cases hpath : Panics place entriesOf t path
    · refine ⟨[], path, rest, rfl, by simp [visits], hpath, ?_⟩
      simp only [Tally.addPaths, ofPath_of_panic pool hpath]
      rfl
    · obtain ⟨e, he, -⟩ := ofPath_of_calm pool hpath
      have hrest : ∃ v ∈ visits place entriesOf (treeAt place entriesOf t path) rest,
          Panics place entriesOf v.1 v.2 := by
        obtain ⟨v, hm, hv⟩ := hpanic
        rcases List.mem_cons.mp hm with rfl | hm
        · exact absurd hv hpath
        · exact ⟨v, hm, hv⟩
      obtain ⟨before, next, after, rfl, hcalm, hnext, hloop⟩ := ih (tally.add e) hrest
      refine ⟨path :: before, next, after, rfl, ?_, hnext, ?_⟩
      · exact List.forall_mem_cons.mpr ⟨hpath, hcalm⟩
      · simp only [Tally.addPaths, he, hloop]
        rfl

/-- There are failures exactly if processing some archive fails. -/
theorem filterMap_failureLine?_eq_nil_iff {visited : List (Tree × String)} {items : List Json.Value}
    (h : List.Forall₂ (fun v item => ∃ result : Except Failure Processed,
      resultAt place entriesOf v.1 v.2 = result.mapError .failed
        ∧ IsEntryOf item (lastName v.2) result) visited items) :
    items.filterMap failureLine? = []
      ↔ (visited.any fun v => fails place entriesOf v.1 v.2) = false := by
  induction h with
  | nil => simp
  | @cons v item visited items hitem _ ih =>
    obtain ⟨result, hresult, hentry⟩ := hitem
    have hline := hentry.failureLine?_eq_none_iff
    rw [List.any_cons, Bool.or_eq_false_iff, ← ih, List.filterMap_cons, fails, hresult]
    cases result with
    | ok p => simp [hline.mpr ⟨p, rfl⟩, Except.mapError]
    | error failure =>
      cases hf : failureLine? item with
      | none => simp [hf] at hline
      | some line => simp [Except.mapError]

/-! ### Archives with ordinary entries -/

/-- Archives with ordinary entries leave the tree unchanged. -/
theorem treeAfter_eq (hfresh : ∀ steps, t.node? (Archive.workplace ++ steps) = none)
    (h : ∀ path ∈ paths, HasOrdinaryEntries t place entriesOf path) :
    treeAfter place entriesOf t paths = t := by
  induction paths with
  | nil => rfl
  | cons path rest ih =>
    obtain ⟨hpath, hrest⟩ := List.forall_mem_cons.mp h
    rw [treeAfter, List.foldl_cons, treeAt, Processed.ofFile_fst_eq hfresh none hpath]
    exact ih hrest

/-- Archives with ordinary entries are all processed in the same tree. -/
theorem visits_eq_map (hfresh : ∀ steps, t.node? (Archive.workplace ++ steps) = none)
    (h : ∀ path ∈ paths, HasOrdinaryEntries t place entriesOf path) :
    visits place entriesOf t paths = paths.map (t, ·) := by
  induction paths with
  | nil => rfl
  | cons path rest ih =>
    obtain ⟨hpath, hrest⟩ := List.forall_mem_cons.mp h
    rw [visits, treeAt, Processed.ofFile_fst_eq hfresh none hpath, ih hrest, List.map_cons]

/-! ## The outcome of a run -/

variable {words : List String} (pools : Pools) {listing : Listing}

/-- A run on the archives of an input. -/
theorem run_eq_runOn (hwords : Options.ofWords? words = some options)
    (hpaths : archivePaths t place options.input listing = .ok paths) (hne : paths ≠ []) :
    run t place words pools listing entriesOf
      = runOn t place pools options paths entriesOf := by
  obtain ⟨path, rest, rfl⟩ := List.exists_cons_of_ne_nil hne
  simp only [run, hwords, hpaths]

/-- A run with an archive that panics ends at the first one that does, and writes no output. -/
theorem run_of_panic (hwords : Options.ofWords? words = some options)
    (hpaths : archivePaths t place options.input listing = .ok paths) (hne : paths ≠ [])
    (hpanic : ∃ v ∈ visits place entriesOf t paths, Panics place entriesOf v.1 v.2) :
    ∃ before path after, paths = before ++ path :: after
      ∧ (∀ v ∈ visits place entriesOf t before, ¬Panics place entriesOf v.1 v.2)
      ∧ Panics place entriesOf (treeAfter place entriesOf t before) path
      ∧ run t place words pools listing entriesOf = {
        exit := panicExit
        stdout := s!"Found {paths.length} .osz files\n"
        stderr := "capacity overflow\n"
        tree := treeAfter place entriesOf t (before ++ [path]) } := by
  obtain ⟨before, path, after, hsplit, hcalm, hpath, hloop⟩ :=
    addPaths_of_panic (poolFor options pools) {} hpanic
  refine ⟨before, path, after, hsplit, hcalm, hpath, ?_⟩
  rw [run_eq_runOn pools hwords hpaths hne]
  unfold runOn
  simp only [hloop]
  rfl

/-- A run without panics accounts for every archive. -/
theorem run_of_calm (hwords : Options.ofWords? words = some options)
    (hpaths : archivePaths t place options.input listing = .ok paths) (hne : paths ≠ [])
    (hwrite : CanWrite (treeAfter place entriesOf t paths) place options
      (anyFails place entriesOf t paths) listRoute reportRoute)
    (hcalm : ∀ v ∈ visits place entriesOf t paths, ¬Panics place entriesOf v.1 v.2) :
    ∃ items, IsAccount place entriesOf t options paths listRoute reportRoute items
      (run t place words pools listing entriesOf) := by
  obtain ⟨entries, hrows, hloop⟩ := addPaths_of_calm (poolFor options pools) {} hcalm
  have ha := Tally.accountsFor_foldl entries
  have hitems : List.Forall₂ (fun v item => ∃ result : Except Failure Processed,
      resultAt place entriesOf v.1 v.2 = result.mapError .failed
        ∧ IsEntryOf item (lastName v.2) result)
      (visits place entriesOf t paths) (entries.map ReportEntry.toJson) := by
    rw [List.forall₂_map_right_iff]
    refine hrows.imp fun v e h => ⟨e.outcome, h.2, ?_⟩
    rw [← h.1]
    exact isEntryOf_toJson e
  have hlength : (entries.map ReportEntry.toJson).length = paths.length := by
    rw [← hitems.length_eq, length_visits]
  obtain ⟨t', hwritten, hreport, hlisted, hquiet, helse⟩ :=
    writeOutputs_spec ha (filterMap_failureLine?_eq_nil_iff hitems) hwrite
  rw [run_eq_runOn pools hwords hpaths hne]
  unfold runOn
  simp only [hloop, hwritten]
  refine ⟨_, rfl, hitems, ?_, ?_, ?_, ?_, hlisted, ?_, hquiet, helse⟩
  · intro item hitem
    obtain ⟨e, -, rfl⟩ := List.mem_map.mp hitem
    exact (isEntryOf_toJson e).hasMapset_eq
  · rw [ha.summary_eq]
  · exact ha.counts.trans hlength
  · intro path hp
    refine ⟨_, hreport path hp, ?_⟩
    rw [parse_report, ha.entries]
  · rw [← ha.failures, ← ha.failed, Array.length_toList]

/-- **Runs account for every archive, unless one panics.** Let the outputs be writable. If an entry
of an archive is oversized, the run ends at the first such archive, with the exit code of a panic
and without writing an output. Otherwise the run succeeds, and its report, its summary and its list
of failures represent the result of each archive. If the entries are ordinary and the name of the
working directory is not in use, every archive is processed in the initial tree, as if it were
alone. -/
theorem run_accounts (hwords : Options.ofWords? words = some options)
    (hpaths : archivePaths t place options.input listing = .ok paths) (hne : paths ≠ [])
    (hwrite : CanWrite (treeAfter place entriesOf t paths) place options
      (anyFails place entriesOf t paths) listRoute reportRoute) :
    ((∃ v ∈ visits place entriesOf t paths, Panics place entriesOf v.1 v.2)
        → ∃ before path after, paths = before ++ path :: after
          ∧ (∀ v ∈ visits place entriesOf t before, ¬Panics place entriesOf v.1 v.2)
          ∧ Panics place entriesOf (treeAfter place entriesOf t before) path
          ∧ run t place words pools listing entriesOf = {
            exit := panicExit
            stdout := s!"Found {paths.length} .osz files\n"
            stderr := "capacity overflow\n"
            tree := treeAfter place entriesOf t (before ++ [path]) })
      ∧ ((∀ v ∈ visits place entriesOf t paths, ¬Panics place entriesOf v.1 v.2)
        → ∃ items, IsAccount place entriesOf t options paths listRoute reportRoute items
          (run t place words pools listing entriesOf))
      ∧ ((∀ steps, t.node? (Archive.workplace ++ steps) = none)
        → (∀ path ∈ paths, HasOrdinaryEntries t place entriesOf path)
        → visits place entriesOf t paths = paths.map (t, ·)
          ∧ treeAfter place entriesOf t paths = t) :=
  ⟨run_of_panic pools hwords hpaths hne, run_of_calm pools hwords hpaths hne hwrite,
    fun hfresh hordinary => ⟨visits_eq_map hfresh hordinary, treeAfter_eq hfresh hordinary⟩⟩

/-! ## A run on three archives -/

/-- A directory with three archives, and a list of failures of an earlier run. -/
def shelf : Tree :=
  (((((Tree.empty.put ["tmp"] .directory).put ["in"] .directory).put ["in", "c.osz"]
    (.file .empty)).put ["in", "b.osz"] (.file "short".toUTF8)).put ["in", "a.osz"]
      (.file "long".toUTF8)).put ["failed.txt"] (.file "d.osz: gone\n".toUTF8)

/-- A chart without problems, given its audio file. -/
def soundChart : ByteArray :=
  ("[General]\nAudioFilename: a.mp3\n[Metadata]\nTitle: t\nArtist: a\nCreator: c\nVersion: v\n"
    ++ "[HitObjects]\n1,2,3,1,0").toUTF8

/-- Entries of three archives: one with a chart and its audio file, one with an empty chart, and one
that cannot be opened. -/
def shelfEntries (archive : ByteArray) : Except Archive.Defect (List Archive.Entry) :=
  if archive = "long".toUTF8 then
    .ok [.file ["a.osu"] soundChart.size soundChart, .file ["a.mp3"] 0 .empty]
  else if archive = "short".toUTF8 then .ok [.file ["a.osu"] 0 .empty]
  else .error .noEndRecord

/-- The command line of the run. -/
def shelfWords : List String := ["in", "--json", "report.json", "--fail-list", "failed.txt"]

/-- The parsed command line. -/
def shelfOptions : Options :=
  { input := "in", report := some "report.json", failures := some "failed.txt" }

/-- The archives of the run. -/
def shelfPaths : List String := ["in/a.osz", "in/b.osz", "in/c.osz"]

theorem ofWords?_shelf : Options.ofWords? shelfWords = some shelfOptions := by decide +kernel

theorem archivePaths_shelf : archivePaths shelf [] "in" = .ok shelfPaths := by
  have hfind : shelf.findPath [] "in" = .ok (["in"], .directory) := by decide +kernel
  have hfound : (archivesAt shelf.listing ⟨"in", ["in"], .directory⟩).map (·.path)
      = shelfPaths := by
    decide +kernel
  have hsorted : shelfPaths.mergeSort isOrdered = shelfPaths :=
    List.mergeSort_of_pairwise (by decide +kernel)
  simp only [archivePaths, hfind, hfound, hsorted]

theorem hasRoom_shelf : HasRoom shelf where
  parent := by decide +kernel
  fresh steps := by
    simp [shelf, Archive.workplace, Tree.node?, Tree.put, Tree.others, Tree.empty]

theorem canWrite_shelf (failing : Bool) :
    CanWrite shelf [] shelfOptions failing ["failed.txt"] ["report.json"] := by
  refine canWrite_of_writesAt ?_ ?_ ?_ (by decide +kernel) (by decide) failing
  · intro path hp
    cases hp
    decide +kernel
  · intro path hp
    cases hp
    show withPath _ _ _ = _
    decide +kernel
  · intro path hp
    cases hp
    show withPath _ _ _ = _
    decide +kernel

/-- The entries of the three archives are ordinary, and none is oversized. -/
theorem shelfEntries_eq_ok {archive : ByteArray} {entries : List Archive.Entry}
    (h : shelfEntries archive = .ok entries) :
    ∀ entry ∈ entries, entry.IsOrdinary ∧ entry.isOversized = false := by
  have hchart : EntryPath.ofName? "a.osu".toList = some ["a.osu"] := by decide
  have haudio : EntryPath.ofName? "a.mp3".toList = some ["a.mp3"] := by decide
  unfold shelfEntries at h
  split at h
  next =>
    cases h
    refine List.forall_mem_cons.mpr ⟨⟨⟨_, by decide, hchart⟩, by decide +kernel⟩, ?_⟩
    exact List.forall_mem_singleton.mpr ⟨⟨_, by decide, haudio⟩, by decide⟩
  next =>
    split at h
    next =>
      cases h
      exact List.forall_mem_singleton.mpr ⟨⟨_, by decide, hchart⟩, by decide⟩
    next => cases h

/-- Whether the result is a mapset that is valid exactly if `valid` is true. -/
def isMapset (valid : Bool) : Except Abort Processed → Bool
  | .ok p => p.isValid == valid
  | .error _ => false

theorem IsEntryOf.of_isMapset {item : Json.Value} {file : String} {valid : Bool}
    {result : Except Failure Processed} (h : IsEntryOf item file result)
    (hresult : isMapset valid (result.mapError .failed) = true) :
    hasMapset item = true ∧ hasError item = false ∧ hasProblems item = !valid := by
  cases result with
  | error failure => cases hresult
  | ok p =>
    obtain ⟨hmapset, herror, hproblems, -⟩ := h.of_ok
    refine ⟨hmapset, herror, ?_⟩
    rw [hproblems, beq_iff_eq.mp (show (p.isValid == valid) = true from hresult)]

theorem run_accounts_of_shelf :
    Options.ofWords? shelfWords = some shelfOptions
      ∧ archivePaths shelf [] "in" = .ok shelfPaths
      ∧ CanWrite (treeAfter [] shelfEntries shelf shelfPaths) [] shelfOptions
        (anyFails [] shelfEntries shelf shelfPaths) ["failed.txt"] ["report.json"]
      ∧ (∀ steps, shelf.node? (Archive.workplace ++ steps) = none)
      ∧ (∀ path ∈ shelfPaths, HasOrdinaryEntries shelf [] shelfEntries path)
      ∧ visits [] shelfEntries shelf shelfPaths = shelfPaths.map (shelf, ·)
      ∧ (∀ v ∈ visits [] shelfEntries shelf shelfPaths, ¬Panics [] shelfEntries v.1 v.2)
      ∧ ∃ items, IsAccount [] shelfEntries shelf shelfOptions shelfPaths ["failed.txt"]
          ["report.json"] items (run shelf [] shelfWords .inOrder shelf.listing shelfEntries)
        ∧ (items.countP fun item => hasMapset item && !hasProblems item) = 1
        ∧ (items.countP fun item => hasMapset item && hasProblems item) = 1
        ∧ items.countP hasError = 1 := by
  have hordinary : ∀ path ∈ shelfPaths, HasOrdinaryEntries shelf [] shelfEntries path :=
    fun path _ archive entries _ hopen entry hm => (shelfEntries_eq_ok hopen entry hm).1
  have hcalm : ∀ v ∈ visits [] shelfEntries shelf shelfPaths, ¬Panics [] shelfEntries v.1 v.2 := by
    intro v _ hpanic
    obtain ⟨-, archive, entries, -, hopen, entry, hm, hover⟩ := hpanic
    rw [(shelfEntries_eq_ok hopen entry hm).2] at hover
    cases hover
  have hwrite : CanWrite (treeAfter [] shelfEntries shelf shelfPaths) [] shelfOptions
      (anyFails [] shelfEntries shelf shelfPaths) ["failed.txt"] ["report.json"] := by
    rw [treeAfter_eq hasRoom_shelf.fresh hordinary]
    exact canWrite_shelf _
  obtain ⟨-, haccounts, hsame⟩ := run_accounts .inOrder ofWords?_shelf archivePaths_shelf
    (by decide) hwrite
  obtain ⟨hvisits, -⟩ := hsame hasRoom_shelf.fresh hordinary
  obtain ⟨items, haccount⟩ := haccounts hcalm
  refine ⟨ofWords?_shelf, archivePaths_shelf, hwrite, hasRoom_shelf.fresh, hordinary, hvisits,
    hcalm, items, haccount, ?_⟩
  -- The items are determined by the results of the archives.
  have hvalid : isMapset true (resultAt [] shelfEntries shelf "in/a.osz") = true := by
    decide +kernel
  have hinvalid : isMapset false (resultAt [] shelfEntries shelf "in/b.osz") = true := by
    decide +kernel
  have hrefused : resultAt [] shelfEntries shelf "in/c.osz"
      = .error (.failed (.notAnArchive .noEndRecord)) := by rfl
  have hentries := haccount.entries
  rw [hvisits] at hentries
  obtain ⟨first, _, ⟨r, hr, hfirst⟩, htwo, rfl⟩ := List.forall₂_cons_left_iff.mp hentries
  obtain ⟨second, _, ⟨r', hr', hsecond⟩, hone, rfl⟩ := List.forall₂_cons_left_iff.mp htwo
  obtain ⟨third, _, ⟨r'', hr'', hthird⟩, hnil, rfl⟩ := List.forall₂_cons_left_iff.mp hone
  cases hnil
  rw [hr] at hvalid
  rw [hr'] at hinvalid
  rw [hrefused] at hr''
  obtain ⟨hmapset, herror, hproblems⟩ := hfirst.of_isMapset hvalid
  obtain ⟨hmapset', herror', hproblems'⟩ := hsecond.of_isMapset hinvalid
  cases r'' with
  | ok p => cases hr''
  | error failure =>
    obtain ⟨hmapset'', herror'', -⟩ := hthird.of_error
    simp [hmapset, herror, hproblems, hmapset', herror', hproblems', hmapset'', herror'']

/-- A run on the same paths where every archive contains an entry with declared size `2 ^ 64 - 1`:
it fails and writes no report. -/
theorem run_fails_of_oversizedChart :
    let outcome := run shelf [] shelfWords .inOrder shelf.listing
      fun _ => .ok Processed.oversizedChart
    outcome.exit = 101 ∧ outcome.tree.readPath [] "report.json" = .error .notFound := by
  intro outcome
  have hordinary : ∀ path,
      HasOrdinaryEntries shelf [] (fun _ => .ok Processed.oversizedChart) path := by
    intro path archive entries _ hopen entry hm
    cases hopen
    rw [Processed.oversizedChart, List.mem_singleton] at hm
    rw [hm]
    exact ⟨"a.osu".toList, by decide, by decide⟩
  have hpanic : Panics [] (fun _ => .ok Processed.oversizedChart) shelf "in/a.osz" :=
    ⟨⟨_, hasRoom_shelf.openWorkplace_eq⟩, "long".toUTF8, Processed.oversizedChart,
      by decide +kernel, rfl, _, List.mem_cons_self .., by decide⟩
  obtain ⟨before, path, after, -, -, -, hrun⟩ := run_of_panic .inOrder ofWords?_shelf
    archivePaths_shelf (by decide) ⟨_, List.mem_cons_self .., hpanic⟩
  rw [treeAfter_eq hasRoom_shelf.fresh fun path _ => hordinary path] at hrun
  have houtcome : outcome = _ := hrun
  rw [houtcome]
  exact ⟨rfl, by decide +kernel⟩

end Beatmap.Command
