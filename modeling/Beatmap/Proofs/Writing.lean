import Beatmap.Files.Path
import Beatmap.Proofs.Directories

/-!
# Paths to output files

`WritesAt` states that a file can be written at a path, and at which route. Reading the same path
returns the file at that route (`readPath_of_writesAt`). Resolving a path depends only on the
directories of a tree, so writing files in between does not change the route
(`SameDirectories.writesAt`), and neither does creating the parent directories of another file
(`grown_createParents`).
-/

namespace Beatmap.Files.Tree

/-! ## Resolving steps -/

/-- The route after one step from a directory. -/
def next? (place : Route) (step : String) : Option Route :=
  if step = "" ∨ step = "." then some place
  else if step = ".." then some place.dropLast
  else if isTooLong step then none
  else some (place ++ [step])

theorem follow_cons_eq_ok_iff {t : Tree} {place route : Route} {step : String}
    {rest : List String} :
    t.follow place (step :: rest) = .ok route
      ↔ t.node? place = some .directory
        ∧ ∃ next, next? place step = some next ∧ t.follow next rest = .ok route := by
  simp only [follow]
  cases t.node? place with
  | none => simp
  | some node =>
    cases node with
    | file content => simp
    | directory =>
      unfold next?
      by_cases hidle : step = "" ∨ step = "."
      · simp only [if_pos hidle, Option.some.injEq, exists_eq_left', true_and]
      · by_cases hdots : step = ".."
        · simp only [if_neg hidle, if_pos hdots, Option.some.injEq, exists_eq_left', true_and]
        · by_cases hlong : isTooLong step = true
          · simp [hidle, hdots, hlong]
          · simp [hidle, hdots, hlong]

theorem follow_append {t : Tree} {place mid route : Route} {before after : List String}
    (hb : t.follow place before = .ok mid) (ha : t.follow mid after = .ok route) :
    t.follow place (before ++ after) = .ok route := by
  induction before generalizing place with
  | nil =>
    cases hb
    exact ha
  | cons step rest ih =>
    obtain ⟨hn, next, hnext, hrest⟩ := follow_cons_eq_ok_iff.mp hb
    exact follow_cons_eq_ok_iff.mpr ⟨hn, next, hnext, ih hrest⟩

/-- Empty steps can be dropped if a further step follows, since that step requires a directory as
well. -/
theorem follow_of_filter {t : Tree} {place route : Route} {steps : List String}
    (hlast : steps.getLast? ≠ some "") (h : t.follow place (steps.filter (· != "")) = .ok route) :
    t.follow place steps = .ok route := by
  induction steps generalizing place with
  | nil => exact h
  | cons step rest ih =>
    have hrest : rest.getLast? ≠ some "" := by
      intro he
      rw [List.getLast?_cons, he] at hlast
      exact hlast rfl
    by_cases hs : step = ""
    · subst hs
      rw [List.filter_cons_of_neg (by simp)] at h
      have hdirectory : t.node? place = some .directory := by
        cases hnames : rest.filter (· != "") with
        | cons name names =>
          rw [hnames] at h
          exact (follow_cons_eq_ok_iff.mp h).1
        | nil =>
          -- The remaining steps are not all empty, since the last one is not.
          cases hl : rest.getLast? with
          | none =>
            rw [List.getLast?_eq_none_iff.mp hl] at hlast
            exact absurd rfl hlast
          | some last =>
            have he := List.filter_eq_nil_iff.mp hnames last (List.mem_of_getLast? hl)
            rw [hl] at hrest
            exact absurd (by simpa using he) (fun e : last = "" => hrest (e ▸ rfl))
      exact follow_cons_eq_ok_iff.mpr ⟨hdirectory, place, by simp [next?], ih hrest h⟩
    · rw [List.filter_cons_of_pos (by simpa using hs)] at h
      obtain ⟨hn, next, hnext, hmore⟩ := follow_cons_eq_ok_iff.mp h
      exact follow_cons_eq_ok_iff.mpr ⟨hn, next, hnext, ih hrest hmore⟩

/-- Resolving steps depends only on the directories of the tree. -/
theorem follow_of_directories {t t' : Tree}
    (h : ∀ route, t.node? route = some .directory → t'.node? route = some .directory)
    {place route : Route} {steps : List String} (hf : t.follow place steps = .ok route) :
    t'.follow place steps = .ok route := by
  induction steps generalizing place with
  | nil => exact hf
  | cons step rest ih =>
    obtain ⟨hn, next, hnext, hrest⟩ := follow_cons_eq_ok_iff.mp hf
    exact follow_cons_eq_ok_iff.mpr ⟨h place hn, next, hnext, ih hrest⟩

/-! ## Targets for writing -/

/-- A file can be written at the path, and is stored at the route. -/
def WritesAt (t : Tree) (place : Route) (path : String) (route : Route) : Prop :=
  withPath place path t.placeToWrite = .ok route

/-- The content of the file at a route, or no bytes if there is no file. -/
def contentAt (t : Tree) (route : Route) : ByteArray :=
  match t.node? route with
  | some (.file content) => content
  | _ => .empty

/-- The trees have the same directories. -/
def SameDirectories (t t' : Tree) : Prop :=
  ∀ route, t'.node? route = some .directory ↔ t.node? route = some .directory

theorem withPath_eq_ok_iff {α : Type} {place : Route} {path : String}
    {go : Route → List String → Except Refusal α} {a : α} :
    withPath place path go = .ok a
      ↔ path.utf8ByteSize ≤ longestPath ∧ go (startOf place path) (steps path) = .ok a := by
  unfold withPath
  by_cases hlong : longestPath < path.utf8ByteSize
  · simp [hlong, Nat.not_le_of_lt hlong]
  · simp [hlong, Nat.le_of_not_lt hlong]

variable {t t' : Tree} {place route : Route} {path : String}

theorem WritesAt.node? (h : t.WritesAt place path route) :
    route ≠ [] ∧ t.node? route ≠ some .directory := by
  obtain ⟨-, hplace⟩ := withPath_eq_ok_iff.mp h
  obtain ⟨-, name, parent, -, -, -, -, -, -, -, rfl, hn⟩ := placeToWrite_eq_ok_iff.mp hplace
  exact ⟨by simp, hn⟩

/-- Writing a file does not change the directories. -/
theorem WritesAt.sameDirectories (h : t.WritesAt place path route) (content : ByteArray) :
    SameDirectories t (t.put route (.file content)) := by
  intro other
  obtain ⟨hne, hn⟩ := h.node?
  by_cases ho : other = route
  · subst ho
    rw [node?_put_self t hne]
    exact iff_of_false (by simp) hn
  · rw [node?_put_of_ne t ho]

/-- A path can still be written if the directories are kept and the target does not become one. -/
theorem WritesAt.mono (h : t.WritesAt place path route)
    (hkept : ∀ other, t.node? other = some .directory → t'.node? other = some .directory)
    (hfree : t'.node? route ≠ some .directory) : t'.WritesAt place path route := by
  obtain ⟨hlong, hplace⟩ := withPath_eq_ok_iff.mp h
  obtain ⟨before, name, parent, hnames, hf, hp, hdot, hdots, hlast, hname, hroute, -⟩ :=
    placeToWrite_eq_ok_iff.mp hplace
  have hf' := follow_of_directories hkept hf
  exact withPath_eq_ok_iff.mpr
    ⟨hlong, placeToWrite_eq_ok_iff.mpr ⟨before, name, parent, hnames, hf',
    hkept parent hp, hdot, hdots, hlast, hname, hroute, hfree⟩⟩

theorem SameDirectories.writesAt (hs : SameDirectories t t') (h : t.WritesAt place path route) :
    t'.WritesAt place path route :=
  h.mono (fun other hd => (hs other).mpr hd) fun hd => h.node?.2 ((hs route).mp hd)

/-- Reading a path returns the content of the file at its route. -/
theorem readPath_of_writesAt {content : ByteArray} (h : t.WritesAt place path route)
    (hc : t.node? route = some (.file content)) : t.readPath place path = .ok content := by
  obtain ⟨hlong, hplace⟩ := withPath_eq_ok_iff.mp h
  obtain ⟨before, name, parent, hnames, hf, hp, hdot, hdots, hlast, hname, rfl, -⟩ :=
    placeToWrite_eq_ok_iff.mp hplace
  have hempty : name ≠ "" := by
    have hmem : name ∈ (steps path).filter (· != "") := by
      rw [hnames]
      simp
    simpa using (List.mem_filter.mp hmem).2
  have hnext : next? parent name = some (parent ++ [name]) := by
    simp [next?, hempty, hdot, hdots, hname]
  have hroute : t.follow (startOf place path) (steps path) = .ok (parent ++ [name]) := by
    refine follow_of_filter hlast ?_
    rw [hnames]
    exact follow_append hf (follow_cons_eq_ok_iff.mpr ⟨hp, _, hnext, rfl⟩)
  have hfind : t.findPath place path = .ok (parent ++ [name], .file content) :=
    withPath_eq_ok_iff.mpr ⟨hlong, by simp only [hroute, hc]⟩
  rw [readPath, hfind]

theorem updatePath_of_writesAt (h : t.WritesAt place path route) (update : ByteArray → ByteArray) :
    t.updatePath place path update = .ok (t.put route (.file (update (t.contentAt route)))) := by
  obtain ⟨hlong, hplace⟩ := withPath_eq_ok_iff.mp h
  refine withPath_eq_ok_iff.mpr ⟨hlong, ?_⟩
  simp only [hplace]
  rfl

/-! ## Parent directories -/

/-- Only directories are created. -/
theorem grown_createOnWay (t : Tree) (place : Route) (begun : Bool) (steps : List String) :
    Grown [] t (t.createOnWay place begun steps).1 := by
  induction steps generalizing t place begun with
  | nil => exact .refl [] t
  | cons step rest ih =>
    simp only [createOnWay]
    split
    next => exact ih ..
    next =>
      split
      next => exact ih ..
      next =>
        split
        next => exact ih ..
        next => exact .refl [] t
        next hn =>
          split
          next => exact .refl [] t
          next => exact (Grown.of_prefix (List.nil_prefix ..)
            (grown_put_directory hn)).trans (ih ..)

theorem grown_createParents (t : Tree) (place : Route) (path : String) :
    Grown [] t (t.createParents place path).1 := by
  unfold createParents
  dsimp only
  split
  next => exact .refl [] t
  next => exact grown_createOnWay ..

theorem Grown.contentAt {place : Route} (h : Grown place t t') (route : Route) :
    t'.contentAt route = t.contentAt route := by
  have hfile := h.file_iff route
  unfold Tree.contentAt
  cases hn : t.node? route with
  | none =>
    rw [hn] at hfile
    split
    next content hc => exact absurd ((hfile content).mp hc) (by simp)
    next => rfl
  | some node => rw [h.kept route node hn]

end Beatmap.Files.Tree
