import StyleMonitor.Disk.Walk

/-!
The calls that a program makes on the files. Each call either does all that it says or fails and
leaves every file as it was.
-/

namespace StyleMonitor.Disk

/-- Fails for a cause. -/
def refuse {α : Type} (cause : Cause) : Except Failure α :=
  .error (.refused cause)

/-- What stands where a path leads, links followed. -/
def status (disk : Disk) (path : String) : Except Failure Node := do
  let found ← disk.spot true path
  match found.node with
  | none => refuse .notFound
  | some .directory => .ok .directory
  | some node => if Path.endsInSlash path then refuse .notADirectory else .ok node

/-- The content of a file. -/
def read (disk : Disk) (path : String) : Except Failure Bytes := do
  match ← disk.status path with
  | .file content _ => .ok content
  | .directory => refuse .isADirectory
  | .link _ => refuse .tooManyLinks

/-- The place that a path leads to, as an absolute path without links. -/
def canonical (disk : Disk) (path : String) : Except Failure String := do
  let found ← disk.spot true path
  let _ ← disk.status path
  .ok (placePath found.place)

/-- Makes a directory where nothing stands. -/
def makeDirectory (disk : Disk) (path : String) : Except Failure Disk := do
  let found ← disk.spot false path
  if found.named ∧ found.node = none then
    .ok { disk with tree := disk.tree.insert found.place .directory }
  else refuse .alreadyExists

/-- Makes a symbolic link where nothing stands. -/
def makeLink (disk : Disk) (target path : String) : Except Failure Disk := do
  let found ← disk.spot false path
  if found.named ∧ found.node = none then
    if Path.endsInSlash path then refuse .notFound
    else .ok { disk with tree := disk.tree.insert found.place (.link target) }
  else refuse .alreadyExists

/-- Removes a file or a link. -/
def remove (disk : Disk) (path : String) : Except Failure Disk := do
  let found ← disk.spot false path
  match found.node with
  | none => refuse .notFound
  | some .directory => refuse .isADirectory
  | some _ =>
    if Path.endsInSlash path then refuse .notADirectory
    else .ok { disk with tree := disk.tree.erase found.place }

/-- Removes an empty directory. -/
def removeDirectory (disk : Disk) (path : String) : Except Failure Disk := do
  let found ← disk.spot false path
  match found.node with
  | none => refuse .notFound
  | some .directory =>
    if ¬ found.named then refuse .invalidArgument
    else if disk.tree.hasEntries found.place then refuse .notEmpty
    else .ok { disk with tree := disk.tree.erase found.place }
  | some _ => refuse .notADirectory

/-- Gives a file this content, and makes the file if nothing stands where the path leads. -/
def write (disk : Disk) (path : String) (content : Bytes) : Except Failure Disk := do
  let found ← disk.spot true path
  if ¬ found.named ∨ Path.endsInSlash path then refuse .isADirectory
  else match found.node with
    | some .directory => refuse .isADirectory
    | some (.file _ executable) =>
      .ok { disk with tree := disk.tree.insert found.place (.file content executable) }
    | _ => .ok { disk with tree := disk.tree.insert found.place (.file content false) }

/-- Makes an empty file where nothing stands, not even a link. -/
def create (disk : Disk) (path : String) : Except Failure Disk := do
  let found ← disk.spot false path
  if Path.endsInSlash path then refuse .isADirectory
  else if found.named ∧ found.node = none then
    .ok { disk with tree := disk.tree.insert found.place (.file [] false) }
  else refuse .alreadyExists

/-- Lets a file be run as a program. -/
def makeExecutable (disk : Disk) (path : String) : Except Failure Disk := do
  let found ← disk.spot true path
  match found.node with
  | some (.file content _) =>
    .ok { disk with tree := disk.tree.insert found.place (.file content true) }
  | some _ => .ok disk
  | none => refuse .notFound

/-- Why one node may not take the place of another, if it may not. -/
def renameObstacle (tree : Tree) (target : Place) : Node → Option Node → Option Cause
  | .directory, some .directory => if tree.hasEntries target then some .notEmpty else none
  | .directory, some _ => some .notADirectory
  | _, some .directory => some .isADirectory
  | _, _ => none

/-- Moves what a path names to another path, with all below it. A file takes the place of a
file, and a directory that of an empty directory. -/
def rename (disk : Disk) (source target : String) : Except Failure Disk := do
  let old ← disk.spot false source
  let new ← disk.spot false target
  if ¬ old.named ∨ ¬ new.named then refuse .busy
  else match old.node with
    | none => refuse .notFound
    | some node =>
      if node ≠ .directory ∧ (Path.endsInSlash source ∨ Path.endsInSlash target) then
        refuse .notADirectory
      else if node = .directory ∧ old.place ≠ new.place ∧ old.place.isPrefixOf new.place then
        refuse .invalidArgument
      else if old.place ≠ new.place ∧ new.place.isPrefixOf old.place then refuse .notEmpty
      else if old.place = new.place then .ok disk
      else match renameObstacle disk.tree new.place node new.node with
        | some cause => refuse cause
        | none =>
          .ok { disk with tree := (disk.tree.erase new.place).move old.place new.place }

/-- Whether a path leads to anything. -/
def isThere (disk : Disk) (path : String) : Bool :=
  (disk.status path).isOk

/-- Whether a path leads to a directory. -/
def isDirectory (disk : Disk) (path : String) : Bool :=
  match disk.status path with
  | .ok .directory => true
  | _ => false

end StyleMonitor.Disk
