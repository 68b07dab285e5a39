import Beatmap.Files.Tree

/-!
# Directory listings

A `Listing` gives the names and kinds of the items in each directory. Names are distinct within a
directory, and their order is arbitrary. A link is listed as a link, whatever its target. A `Tree`
contains no links, and its listing consists of the children of each node.

Names are strings, so directory entries whose names are not valid UTF-8 are outside the model.
-/

namespace Beatmap.Files

/-- The kind of an item in a directory. -/
inductive Kind where
  | directory
  | file
  /-- A symbolic link. -/
  | link
  /-- A special file, such as a pipe or a device. -/
  | other
  deriving DecidableEq, Repr

/-- The kind of a node. -/
def Node.kind : Node → Kind
  | directory => .directory
  | file _ => .file

/-- The contents of directories. -/
structure Listing where
  /-- The names and kinds of the items in the directory at a route, in arbitrary order. -/
  entries : Route → List (String × Kind)
  /-- The names in a directory are distinct. -/
  distinct : ∀ route, ((entries route).map (·.1)).Nodup

/-- The listing with the items of a single directory. -/
def Listing.single (directory : Route) (names : List (String × Kind))
    (distinct : (names.map (·.1)).Nodup) : Listing where
  entries route := if route = directory then names else []
  distinct route := by
    split
    · exact distinct
    · exact List.nodup_nil

namespace Tree

/-- The children of a directory have distinct names. -/
theorem children_distinct (t : Tree) (route : Route) : ((t.children route).map (·.1)).Nodup := by
  have hplaces : t.nodes.Pairwise fun n m => n.1 ≠ m.1 := List.pairwise_map.mp t.distinct
  refine List.pairwise_map.mpr (hplaces.filterMap _ ?_)
  rintro ⟨place, node⟩ ⟨place', node'⟩ hne e he e' he' hname
  -- Distinct routes with the same parent differ in their last name.
  apply hne
  dsimp only at he he'
  split at he
  · next hd =>
    split at he'
    · next hd' =>
      obtain ⟨last, hl, rfl⟩ := Option.map_eq_some_iff.mp he
      obtain ⟨last', hl', rfl⟩ := Option.map_eq_some_iff.mp he'
      obtain ⟨outer, rfl⟩ := List.getLast?_eq_some_iff.mp hl
      obtain ⟨outer', rfl⟩ := List.getLast?_eq_some_iff.mp hl'
      rw [List.dropLast_concat] at hd hd'
      dsimp only at hname ⊢
      rw [hd, hd', hname]
    · cases he'
  · cases he

/-- The listing of a tree. -/
def listing (t : Tree) : Listing where
  entries route := (t.children route).map fun (name, node) => (name, node.kind)
  distinct route := by
    rw [List.map_map]
    exact t.children_distinct route

end Tree

end Beatmap.Files
