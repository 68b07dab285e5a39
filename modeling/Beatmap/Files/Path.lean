import Beatmap.Files.Tree
import Beatmap.Text.Pieces

/-!
# Path strings

A path string is split at slashes into steps. A path that starts with a slash is absolute; any other
is relative to the current directory. Empty steps and `.` are idle. `goBack` removes the last step
of a path that is not idle, together with the idle steps around it; on a path without idle steps it
removes the last step (`goBack_of_not_isIdle`).
-/

namespace Beatmap.Files

/-- The steps of a path, including empty ones. -/
def steps (path : String) : List String := (Text.pieces '/' path.toList).map String.ofList

/-- Whether a step leaves the current directory unchanged. -/
def isIdle (step : String) : Bool := step == "" || step == "."

/-- Removes the idle steps at the end. -/
def trimIdle (steps : List String) : List String := (steps.reverse.dropWhile isIdle).reverse

/-- Removes the last step that is not idle and the idle steps next to it. The first step is removed
even if it is idle, unless it is the root. -/
def goBack : List String → List String
  | [] => []
  | first :: rest =>
    let steps := trimIdle rest
    if steps = [] then if first = "" then first :: rest else []
    else
      let outer := first :: trimIdle steps.dropLast
      if outer = [""] then ["", ""] else outer

/-- The steps of a path that are not idle. -/
def names (path : String) : List String := (steps path).filter (!isIdle ·)

/-- The last name of a path; empty if the path ends with `..`. -/
def lastName (path : String) : String :=
  match (names path).getLast? with
  | some name => if name = ".." then "" else name
  | none => ""

/-- The route that the steps of a path start from. -/
def startOf (place : Route) (path : String) : Route :=
  if path.toList.head? = some '/' then [] else place

/-- Appends a name to the path of a directory. -/
def under (directory name : String) : String :=
  match directory.toList.getLast? with
  | none | some '/' => directory ++ name
  | some _ => directory ++ "/" ++ name

/-- The maximal number of bytes of a path. -/
def longestPath : Nat := 4095

/-- Applies `go` to the starting route and the steps of a path that is not too long. -/
def withPath {α : Type} (place : Route) (path : String)
    (go : (start : Route) → (steps : List String) → Except Refusal α) : Except Refusal α :=
  if longestPath < path.utf8ByteSize then .error .nameTooLong
  else go (startOf place path) (steps path)

namespace Tree

/-- Resolves a path to its route and the node there. -/
def findPath (t : Tree) (place : Route) (path : String) : Except Refusal (Route × Node) :=
  withPath place path fun start steps =>
    match t.follow start steps with
    | .error refusal => .error refusal
    | .ok route =>
      match t.node? route with
      | some node => .ok (route, node)
      | none => .error .notFound

/-- Reads the file at a path. -/
def readPath (t : Tree) (place : Route) (path : String) : Except Refusal ByteArray :=
  match t.findPath place path with
  | .error refusal => .error refusal
  | .ok (_, .directory) => .error .isADirectory
  | .ok (_, .file content) => .ok content

/-- Updates the content of the file at a path. A file that does not exist counts as empty. -/
def updatePath (t : Tree) (place : Route) (path : String) (update : ByteArray → ByteArray) :
    Except Refusal Tree :=
  withPath place path fun start steps =>
    match t.placeToWrite start steps with
    | .error refusal => .error refusal
    | .ok route =>
      let old := match t.node? route with
        | some (.file content) => content
        | _ => .empty
      .ok (t.put route (.file (update old)))

/-- Creates the parent directories of a path. -/
def createParents (t : Tree) (place : Route) (path : String) : Tree × Option Refusal :=
  let parents := (names path).dropLast
  if parents ≠ [] ∧ longestPath < (String.intercalate "/" (goBack (steps path))).utf8ByteSize then
    (t, some .nameTooLong)
  else t.createDirectories (startOf place path) parents

end Tree

/-! ## Removing the last step -/

theorem mem_of_mem_trimIdle {step : String} {steps : List String} (h : step ∈ trimIdle steps) :
    step ∈ steps :=
  List.mem_reverse.1 ((List.dropWhile_sublist _).subset (List.mem_reverse.1 h))

theorem trimIdle_of_not_isIdle {steps : List String} (h : ∀ step ∈ steps, isIdle step = false) :
    trimIdle steps = steps := by
  unfold trimIdle
  cases e : steps.reverse with
  | nil => simpa using e.symm
  | cons last before =>
    have hl : isIdle last = false := h last (List.mem_reverse.1 (e ▸ List.mem_cons_self ..))
    rw [List.dropWhile_cons_of_neg (by simp [hl]), ← e, List.reverse_reverse]

/-- `goBack` introduces no new steps. -/
theorem mem_of_mem_goBack {step : String} {path : List String}
    (h : step ∈ goBack path) : step ∈ path := by
  unfold goBack at h
  split at h
  · exact h
  · next first rest =>
    simp only at h
    split at h
    · split at h
      · exact h
      · simp at h
    · split at h
      · next ho =>
        rw [(List.cons.inj ho).1]
        simp only [List.mem_cons, List.not_mem_nil, or_false, or_self] at h
        exact h ▸ List.mem_cons_self ..
      · rcases List.mem_cons.1 h with rfl | h
        · exact List.mem_cons_self ..
        · exact List.mem_cons_of_mem _
            (mem_of_mem_trimIdle (List.dropLast_subset _ (mem_of_mem_trimIdle h)))

/-- On a path without idle steps, `goBack` removes the last step. -/
theorem goBack_of_not_isIdle {path : List String} (h : ∀ step ∈ path, isIdle step = false) :
    goBack path = path.dropLast := by
  cases path with
  | nil => rfl
  | cons first rest =>
    have hf : first ≠ "" := fun e => by simpa [e, isIdle] using h first (List.mem_cons_self ..)
    have hr : ∀ step ∈ rest, isIdle step = false :=
      fun step hs => h step (List.mem_cons_of_mem _ hs)
    have hd : ∀ step ∈ rest.dropLast, isIdle step = false :=
      fun step hs => hr step (List.dropLast_subset _ hs)
    cases rest with
    | nil => simp [goBack, trimIdle, hf]
    | cons second rest => simp [goBack, trimIdle_of_not_isIdle hr, trimIdle_of_not_isIdle hd, hf]

end Beatmap.Files
