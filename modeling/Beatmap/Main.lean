import Beatmap.Command.Run

/-!
# The program

Loads the files and directories named on the command line, and the parent of the working directory,
into a `Tree`, applies `run`, and writes the differences back to the file system.
-/

namespace Beatmap.Command

open Beatmap.Files

/-- The route of a path, with steps back resolved. -/
def routeOf (place : Route) (path : String) : Route :=
  (names path).foldl (fun route name => if name = ".." then route.dropLast else route ++ [name])
    (startOf place path)

/-- A route as an absolute path. -/
def pathOf (route : Route) : String := "/" ++ String.intercalate "/" route

/-- Loads the node at a route. -/
def takeOver (t : Tree) (route : Route) : IO Tree := do
  let path := (← IO.currentDir) / pathOf route
  if ← path.isDir then return t.put route .directory
  else if ← path.pathExists then return t.put route (.file (← IO.FS.readBinFile path))
  else return t

/-- Loads the nodes along a path. -/
def takeOverPath (t : Tree) (place : Route) (path : String) : IO Tree :=
  let route := routeOf place path
  (List.range route.length).foldlM (fun t k => takeOver t (route.take (k + 1))) t

/-- The kind of an item of the file system. -/
def kindOf : IO.FS.FileType → Kind
  | .dir => .directory
  | .file => .file
  | .symlink => .link
  | .other => .other

/-- Lists a directory of the file system. -/
def listingOf (route : Route) : IO Listing := do
  let path := (← IO.currentDir) / pathOf route
  let listed ← if ← path.isDir then path.readDir else pure #[]
  let names ← listed.toList.mapM fun entry =>
    return (entry.fileName, kindOf (← entry.path.symlinkMetadata).type)
  if distinct : (names.map (·.1)).Nodup then return .single route names distinct
  else throw (.userError s!"Listed twice: {pathOf route}")

/-- Loads the archives in a directory. -/
def takeOverArchives (t : Tree) (listing : Listing) (route : Route) : IO Tree :=
  (archivesAt listing ⟨pathOf route, route, .directory⟩).foldlM (takeOver · ·.route) t

/-- Writes the differences back, directories before their contents. -/
def writeBack (before after : Tree) : IO Unit := do
  after.nodes.reverse.forM fun (route, node) => do
    if before.node? route != some node then
      match node with
      | .directory => IO.FS.createDirAll (pathOf route)
      | .file content => IO.FS.writeBinFile (pathOf route) content
  before.nodes.forM fun (route, _) => do
    if (after.node? route).isNone then IO.FS.removeFile (pathOf route)

/-- The current directory, the tree of loaded files, and the listing of the input. -/
def situation (words : List String) : IO (Route × Tree × Listing) := do
  let place := names (← IO.currentDir).toString
  match Options.ofWords? words with
  | none => return (place, .empty, Tree.empty.listing)
  | some options =>
    let paths := options.input :: options.failures.toList ++ options.report.toList
    let t ← paths.foldlM (takeOverPath · place ·) Tree.empty
    let t ← takeOverPath t [] (pathOf place)
    let t ← takeOver t Archive.workplace.dropLast
    let route := routeOf place options.input
    let listing ← listingOf route
    return (place, ← takeOverArchives t listing route, listing)

end Beatmap.Command

/-- The entry point. -/
def main (words : List String) : IO UInt32 := do
  let (place, before, listing) ← Beatmap.Command.situation words
  let outcome := Beatmap.Command.run before place words .inOrder listing
  Beatmap.Command.writeBack before outcome.tree
  IO.print outcome.stdout
  IO.eprint outcome.stderr
  return outcome.exit.toUInt32
