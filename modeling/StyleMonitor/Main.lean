import Std.Time.DateTime.Timestamp
import StyleMonitor.Console

/-!
The program as it is started on a system. The files that a request can be about are gathered
into a volume, the request is carried out on it, and what has changed is put back.
-/

namespace StyleMonitor.OnSystem

/-- What stands at a place, and all below it. Links are left out, and so is what cannot be
read. -/
partial def gather (place : Place) (entry : IO.FS.DirEntry) : IO (List (Place × Node)) := do
  try
    let path := entry.path
    match (← path.symlinkMetadata).type with
    | .dir =>
      let inside ← (← path.readDir).toList.mapM fun entry =>
        gather (place ++ [entry.fileName]) entry
      return (place, .directory) :: inside.flatten
    | .file => return [(place, .file (← IO.FS.readBinFile path).toList false)]
    | _ => return []
  catch _ => return []

/-- A place as an entry of the root directory. -/
def entryAt (place : Place) : IO.FS.DirEntry :=
  ⟨"/", String.intercalate "/" place⟩

/-- The directories above a place, as far as they are there. -/
def above (place : Place) : IO (List (Place × Node)) := do
  let places := ((List.range place.length).drop 1).map place.take
  return (← places.filterM fun place => (entryAt place).path.isDir).map (·, .directory)

/-- What stands at an absolute path and below it, with the directories above it. -/
def gatherPath (path : String) : IO (List (Place × Node)) := do
  let place := Disk.names path
  return (← above place) ++ (← gather place (entryAt place))

/-- The paths that a request is about, as seen from the directory `current`. -/
def paths (current : String) (here : Circumstances) (arguments : List String) : List String :=
  match Invocation.ofArguments arguments with
  | .error _ => []
  | .ok invocation =>
    let roots := match invocation.request with
      | .check root => [root]
      | .watch roots => roots
      | _ => []
    let config := Settings.filePath invocation.config
      (here.around.bindings.lookup Settings.variableName) here.home
    (Settings.appDirectory here.home :: Path.withExtension config "bak" :: config :: roots).map
      (Path.absolute current)

/-- The volume on which a request is carried out: what stands at some paths, and the current
directory. -/
def volume (current : String) (paths : List String) : IO Volume := do
  let place := Disk.names current
  let known := (← above place) ++ (place, Node.directory) ::
    (← paths.mapM gatherPath).flatten
  let tree : Tree := known.foldl (fun tree (place, node) => tree.insert place node) {}
  return { disk := ⟨tree, place⟩ }

/-- Puts back one place. -/
def putBack (place : Place) : Node → IO Unit
  | .directory => IO.FS.createDirAll (Disk.placePath place)
  | .file content _ => IO.FS.writeBinFile (Disk.placePath place) ⟨content.toArray⟩
  | .link _ => pure ()

/-- Takes away one place. -/
def takeAway (place : Place) : Node → IO Unit
  | .directory => IO.FS.removeDir (Disk.placePath place)
  | _ => IO.FS.removeFile (Disk.placePath place)

/-- Puts back what has changed, and takes away what is gone, the deepest places first. -/
def settle (before after : Tree) : IO Unit := do
  (before.below []).reverse.forM fun (place, node) => do
    if (after.lookup place).isNone then takeAway place node
  (after.below []).forM fun (place, node) => do
    if before.lookup place ≠ some node then putBack place node

/-- All that can be read. -/
partial def readAll (stream : IO.FS.Stream) : IO String := do
  let line ← stream.getLine
  if line.isEmpty then return "" else return line ++ (← readAll stream)

/-- Whether a request reads the standard input. -/
def isReader (arguments : List String) : Bool :=
  match Invocation.ofArguments arguments with
  | .ok { request := .watch _, .. } => true
  | _ => false

/-- The variables of the environment that the program looks at. -/
def bindings : IO (List (String × String)) :=
  [Settings.variableName, "HOME", "PATH"].filterMapM fun name => do
    return (← IO.getEnv name).map fun value => (name, value)

/-- What the program finds. -/
def circumstances (arguments : List String) : IO Circumstances := do
  let bindings ← bindings
  let now ← Std.Time.Timestamp.now
  let input ← if isReader arguments then readAll (← IO.getStdin) else pure ""
  return {
    around := ⟨((bindings.lookup "PATH").getD "").splitOn ":", bindings⟩
    home := (bindings.lookup "HOME").getD "/"
    now := ⟨now.toNanosecondsSinceUnixEpoch.val⟩
    input }

end StyleMonitor.OnSystem

open StyleMonitor in
/-- Carries out what the arguments ask for. -/
def main (arguments : List String) : IO UInt32 := do
  let here ← OnSystem.circumstances arguments
  let current := (← IO.currentDir).toString
  let volume ← OnSystem.volume current (OnSystem.paths current here arguments)
  let (status, console) := Console.run here arguments volume
  OnSystem.settle volume.disk.tree console.volume.disk.tree
  console.stdout.forM IO.println
  console.stderr.forM IO.eprintln
  return UInt32.ofNat status
