import StyleMonitor.Disk.Session

/-!
Writing a file as a whole. The new content goes to a temporary file beside the target, which
then takes the target's place in one step. Where the system does not let a file take the place
of another, the old file is parked beside the target, with the extension `bak`, until the new
one stands; a parked file that a stop has left behind is put back later.
-/

namespace StyleMonitor.Session

/-- The path at which the old file is parked. -/
def backupPath (path : String) : String :=
  Path.withExtension path "bak"

/-- The directory that a path's file stands in. -/
def directoryOf (path : String) : String :=
  match Path.parent? path with
  | none => "."
  | some above => if above = "" then "." else above

/-- Puts a temporary file in the place of a target that a plain move could not replace: the old
file is parked, and put back if the move fails again. -/
def replaceParked (temporary path : String) : Session Unit := do
  let backup := backupPath path
  ignoring (remove backup)
  rename path backup
  match ← attempt (rename temporary path) with
  | .ok () => ignoring (remove backup)
  | .error failure => do
    ignoring (rename backup path)
    throw failure

/-- Puts a written temporary file in the place of the target. -/
def settle (temporary path : String) : Session Unit := do
  match ← attempt (rename temporary path) with
  | .ok () => return ()
  | .error failure =>
    if ← isThere path then replaceParked temporary path else throw failure

/-- Gives a file a new content, all of it or nothing (`atomic_write`). Missing directories are made.
-/
def atomicWrite (path : String) (content : Bytes) : Session Unit := do
  makeDirectories (directoryOf path)
  let temporary ← makeTemporary (directoryOf path)
  let outcome ← attempt do
    write temporary content
    sync
    settle temporary path
  match outcome with
  | .ok () => return ()
  | .error failure => do
    ignoring (remove temporary)
    throw failure

/-- Puts a parked file back where it belongs, if nothing stands there (`recover_bak_file`). -/
def recoverBackup (path : String) : Session Unit := do
  if ← isThere path then return ()
  if ← isThere (backupPath path) then ignoring (rename (backupPath path) path)

end StyleMonitor.Session
