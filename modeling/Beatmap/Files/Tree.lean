import Beatmap.Bytes

/-!
# File trees

A `Tree` is a finite map from routes to directories and files. The operations fail where a file
system does: `createDirectories` if a file is in the way, and writing (`placeToWrite`) if the target
is a directory. Both fail on names that are too long. The root is always a directory and is not
stored.

Names are strings: files whose names are not valid UTF-8 are outside the model, as are links,
permissions and failing devices.
-/

namespace Beatmap.Files

/-- The names on the way from the root to a node, outermost first. -/
abbrev Route := List String

/-- A node of a tree. -/
inductive Node where
  | directory
  | file (content : ByteArray)
  deriving DecidableEq

/-- Why a file operation fails. -/
inductive Refusal where
  | notFound
  | alreadyThere
  | notADirectory
  | isADirectory
  | nameTooLong
  deriving DecidableEq, Repr

/-- The message of a failed operation. -/
def Refusal.message : Refusal → String
  | notFound => "No such file or directory (os error 2)"
  | alreadyThere => "File exists (os error 17)"
  | notADirectory => "Not a directory (os error 20)"
  | isADirectory => "Is a directory (os error 21)"
  | nameTooLong => "File name too long (os error 36)"

/-- The maximal number of bytes of a name. -/
def longestName : Nat := 255

/-- Whether a name exceeds that number. -/
def isTooLong (name : String) : Bool := longestName < name.utf8ByteSize

/-- A tree of directories and files. -/
structure Tree where
  /-- The nodes with their routes, the latest one first. -/
  nodes : List (Route × Node) := []
  /-- No route has two nodes. -/
  distinct : (nodes.map (·.1)).Nodup := by exact List.nodup_nil

namespace Tree

/-- The tree that contains only the root. -/
def empty : Tree := {}

/-- The node at a route. -/
def node? (t : Tree) (route : Route) : Option Node :=
  if route = [] then some .directory else t.nodes.lookup route

/-- The nodes at all other routes. -/
def others (t : Tree) (route : Route) : List (Route × Node) := t.nodes.filter (·.1 != route)

theorem others_distinct (t : Tree) (route : Route) : ((t.others route).map (·.1)).Nodup :=
  t.distinct.sublist (List.filter_sublist.map _)

theorem not_mem_others (t : Tree) (route : Route) : route ∉ (t.others route).map (·.1) := by
  simp [others]

/-- Sets the node at a route. -/
def put (t : Tree) (route : Route) (node : Node) : Tree where
  nodes := (route, node) :: t.others route
  distinct := List.nodup_cons.2 ⟨t.not_mem_others route, t.others_distinct route⟩

/-- Removes the node at a route. -/
def erase (t : Tree) (route : Route) : Tree := ⟨t.others route, t.others_distinct route⟩

/-- The nodes that are neither at a route nor below it. -/
def outside (t : Tree) (route : Route) : List (Route × Node) :=
  t.nodes.filter fun n => !route.isPrefixOf n.1

/-- Removes the node at a route and all nodes below it. -/
def eraseAll (t : Tree) (route : Route) : Tree where
  nodes := t.outside route
  distinct := t.distinct.sublist (List.filter_sublist.map _)

/-- The children of a node by name. -/
def children (t : Tree) (route : Route) : List (String × Node) :=
  t.nodes.filterMap fun (place, node) =>
    if place.dropLast = route then place.getLast?.map (·, node) else none

/-! ## Resolving paths -/

/-- Resolves steps from a directory. An empty step and `.` have no effect, `..` goes to the parent,
and every step requires that the current node is a directory. -/
def follow (t : Tree) (place : Route) : List String → Except Refusal Route
  | [] => .ok place
  | step :: rest =>
    match t.node? place with
    | none => .error .notFound
    | some (.file _) => .error .notADirectory
    | some .directory =>
      if step = "" ∨ step = "." then follow t place rest
      else if step = ".." then follow t place.dropLast rest
      else if isTooLong step then .error .nameTooLong
      else follow t (place ++ [step]) rest

/-! ## Creating and writing -/

/-- Creates the missing directories along some steps; directories created before a failure are kept.
`begun` tells whether a directory has been created. After that, every directory is requested
individually, so a file in the way is reported as existing. Before that, only the last step is
requested, and a file at an earlier step is reported as not being a directory. -/
def createOnWay (t : Tree) (place : Route) (begun : Bool) : List String → Tree × Option Refusal
  | [] => (t, none)
  | step :: rest =>
    if step = "" ∨ step = "." then t.createOnWay place begun rest
    else if step = ".." then t.createOnWay place.dropLast begun rest
    else
      let next := place ++ [step]
      match t.node? next with
      | some .directory => t.createOnWay next begun rest
      | some (.file _) => (t, some (if begun ∨ rest = [] then .alreadyThere else .notADirectory))
      | none =>
        if isTooLong step then (t, some .nameTooLong)
        else (t.put next .directory).createOnWay next true rest

/-- Creates the missing directories along some steps. -/
def createDirectories (t : Tree) (place : Route) (steps : List String) : Tree × Option Refusal :=
  t.createOnWay place false steps

/-- The route at which a file can be written: its parent must be a directory, and there must be no
directory at the route itself. Steps that end with an empty step, `.` or `..` do not name a file. -/
def placeToWrite (t : Tree) (place : Route) (steps : List String) : Except Refusal Route :=
  let names := steps.filter (· != "")
  match t.follow place names.dropLast with
  | .error refusal => .error refusal
  | .ok parent =>
    match t.node? parent, names.getLast? with
    | none, _ => .error .notFound
    | some (.file _), _ => .error .notADirectory
    | some .directory, none => .error .isADirectory
    | some .directory, some name =>
      if name = "." ∨ name = ".." ∨ steps.getLast? = some "" then .error .isADirectory
      else if isTooLong name then .error .nameTooLong
      else
        match t.node? (parent ++ [name]) with
        | some .directory => .error .isADirectory
        | _ => .ok (parent ++ [name])

/-- Writes a file, replacing an existing one. -/
def writeFile (t : Tree) (place : Route) (steps : List String) (content : ByteArray) :
    Except Refusal Tree :=
  (t.placeToWrite place steps).map (t.put · (.file content))

/-- Removes the file that some steps lead to, if there is one. -/
def removeFile (t : Tree) (place : Route) (steps : List String) : Tree :=
  match t.placeToWrite place steps with
  | .ok route => t.erase route
  | .error _ => t

/-! ## Lookup after an update -/

theorem node?_root (t : Tree) : t.node? [] = some .directory := rfl

/-- In a list with distinct routes, `List.lookup` finds exactly the members. -/
theorem lookup_eq_some_iff {nodes : List (Route × Node)} (h : (nodes.map (·.1)).Nodup)
    {route : Route} {node : Node} : nodes.lookup route = some node ↔ (route, node) ∈ nodes := by
  induction nodes with
  | nil => simp
  | cons n rest ih =>
    obtain ⟨place, other⟩ := n
    rw [List.map_cons, List.nodup_cons] at h
    by_cases hp : route = place
    · subst hp
      have hr : (route, node) ∉ rest := fun hm => h.1 (List.mem_map_of_mem (f := (·.1)) hm)
      simp [hr, eq_comm]
    · have hb : (route == place) = false := by simp [hp]
      simp [List.lookup_cons, hb, ih h.2, hp]

theorem node?_eq_some_iff (t : Tree) {route : Route} (h : route ≠ []) {node : Node} :
    t.node? route = some node ↔ (route, node) ∈ t.nodes := by
  rw [node?, if_neg h, lookup_eq_some_iff t.distinct]

theorem lookup_others {route other : Route} (h : other ≠ route) (nodes : List (Route × Node)) :
    (nodes.filter (·.1 != route)).lookup other = nodes.lookup other := by
  induction nodes with
  | nil => rfl
  | cons n rest ih =>
    obtain ⟨place, node⟩ := n
    by_cases hp : place = route
    · subst hp
      have : (other == place) = false := by simp [h]
      simp [List.lookup_cons, this, ih]
    · simp only [List.filter_cons, bne_iff_ne, ne_eq, hp, not_false_eq_true, ↓reduceIte,
        List.lookup_cons, ih]

theorem node?_put_self (t : Tree) {route : Route} (h : route ≠ []) (node : Node) :
    (t.put route node).node? route = some node := by
  simp [node?, h, put]

theorem node?_put_of_ne (t : Tree) {route other : Route} (h : other ≠ route) (node : Node) :
    (t.put route node).node? other = t.node? other := by
  have hb : (other == route) = false := by simp [h]
  simp only [node?, put, others, List.lookup_cons, hb, lookup_others h]

end Tree

end Beatmap.Files
