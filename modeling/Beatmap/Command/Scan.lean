import Beatmap.Files.Listing
import Beatmap.Files.Path
import Beatmap.Mapset.Path

/-!
# Archives of an input

For a directory, the archives are the regular files directly inside it whose extension is `osz`.
They are found by a walk of depth one, which also visits the directory itself, subdirectories, links
and special files. The paths are sorted at the end, so the result does not depend on the order of
the directory listing. An input that is a file is taken as an archive, whatever its extension.
-/

namespace Beatmap.Command

open Beatmap.Files

/-- Whether a file name has the extension of an archive. -/
def isArchiveName (name : String) : Bool :=
  (Path.extensionOfName? name.toList).map Text.lowerAsciiText == some "osz".toList

/-- An item visited by a walk. -/
structure Found where
  /-- The path of the item, extending the path at which the walk starts. -/
  path : String
  route : Route
  kind : Kind

namespace Found

/-- An item of a directory listing. -/
def child (directory : Found) (entry : String × Kind) : Found where
  path := under directory.path entry.1
  route := directory.route ++ [entry.1]
  kind := entry.2

/-- Whether the item is a regular file with the extension of an archive. -/
def isArchive (found : Found) : Bool :=
  found.kind == .file && isArchiveName (found.route.getLastD "")

end Found

/-- The items of a walk: its start and everything below it down to the given depth. Links are not
followed. -/
def walk (listing : Listing) : (depth : Nat) → Found → List Found
  | 0, start => [start]
  | depth + 1, start =>
    match start.kind with
    | .directory =>
      start :: (listing.entries start.route).flatMap fun entry =>
        walk listing depth (start.child entry)
    | _ => [start]

/-- The archives found by a walk of depth one. -/
def archivesAt (listing : Listing) (start : Found) : List Found :=
  (walk listing 1 start).filter (·.isArchive)

/-- Whether `b` does not precede `a` when paths are compared step by step. -/
def isOrdered (a b : String) : Bool := decide ¬steps b < steps a

/-- The sorted paths of the archives of an input. -/
def archivePaths (t : Tree) (place : Route) (input : String) (listing : Listing := t.listing) :
    Except Refusal (List String) :=
  match t.findPath place input with
  | .error refusal => .error refusal
  | .ok (_, .file _) => .ok [input]
  | .ok (route, .directory) =>
    .ok (((archivesAt listing ⟨input, route, .directory⟩).map (·.path)).mergeSort isOrdered)

end Beatmap.Command
