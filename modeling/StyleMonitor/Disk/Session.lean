import StyleMonitor.Disk.Calls

/-!
Sessions: sequences of calls on the files. A volume holds the files together with a list that
says, for each of the coming calls, whether the system refuses it. A refused call changes
nothing. A stop of the program between two calls looks, to the files, like the refusal of all
later calls, so what holds for every list of refusals holds for every stop as well.
-/

namespace StyleMonitor

/-- The files, and which of the coming calls the system refuses. Calls past the end of the list
are not refused. -/
structure Volume where
  disk : Disk := {}
  refusals : List (Option Cause) := []
  deriving DecidableEq, Repr

/-- Calls in sequence. A failure ends the sequence unless it is attended to; the volume keeps
what earlier calls did. -/
abbrev Session := ExceptT Failure (StateM Volume)

namespace Session

/-- Makes one call, unless the system refuses it. -/
def call {α : Type} (act : Disk → Except Failure (α × Disk)) : Session α := fun volume =>
  match volume.refusals with
  | some cause :: later => (.error (.refused cause), { volume with refusals := later })
  | refusals =>
    match act volume.disk with
    | .ok (answer, disk) => (.ok answer, ⟨disk, refusals.tail⟩)
    | .error failure => (.error failure, { volume with refusals := refusals.tail })

/-- Makes one call that only asks. -/
def ask {α : Type} (question : Disk → Except Failure α) : Session α :=
  call fun disk => (question disk).map fun answer => (answer, disk)

/-- Makes one call that only changes. -/
def change (act : Disk → Except Failure Disk) : Session Unit :=
  call fun disk => (act disk).map fun disk => ((), disk)

/-- Attends to a failure: it becomes part of the answer. -/
def attempt {α : Type} (session : Session α) : Session (Except Failure α) := fun volume =>
  let (answer, volume) := session volume
  (.ok answer, volume)

/-- Goes on whether the session fails or not. -/
def ignoring (session : Session Unit) : Session Unit := do
  let _ ← attempt session

/-- The content of a file. -/
def read (path : String) : Session Bytes := ask (·.read path)

/-- The content of a file as text. -/
def readText (path : String) : Session String := do
  match Text.decode? (← read path) with
  | some text => return text
  | none => throw .notText

/-- Whether a path leads to anything. A refused question counts as no. -/
def isThere (path : String) : Session Bool := do
  match ← attempt (ask (·.status path)) with
  | .ok _ => return true
  | .error _ => return false

/-- Whether a path leads to a directory. A refused question counts as no. -/
def isDirectory (path : String) : Session Bool := do
  match ← attempt (ask (·.status path)) with
  | .ok .directory => return true
  | _ => return false

def makeDirectory (path : String) : Session Unit := change (·.makeDirectory path)

def remove (path : String) : Session Unit := change (·.remove path)

def write (path : String) (content : Bytes) : Session Unit := change (·.write path content)

def rename (source target : String) : Session Unit := change (·.rename source target)

/-- Makes sure that what was written stays. It changes nothing that can be read. -/
def sync : Session Unit := change .ok

/-- The current directory. It is known and needs no call. -/
def currentPath : Session String := fun volume => (.ok volume.disk.currentPath, volume)

/-- Makes the directories of a list, deepest first, until one is made or is already there.
The answer lists those whose own directory was missing. -/
def makeUpwards : List String → Session (List String)
  | [] => return []
  | path :: above => do
    match ← attempt (makeDirectory path) with
    | .ok () => return []
    | .error failure =>
      if failure.isNotFound then return path :: (← makeUpwards above)
      else if failure = .refused .alreadyExists then
        if ← isDirectory path then return [] else throw failure
      else throw failure

/-- Makes directories in turn. One that is already there is as good as made. -/
def makeDownwards : List String → Session Unit
  | [] => return ()
  | path :: below => do
    match ← attempt (makeDirectory path) with
    | .ok () => makeDownwards below
    | .error failure =>
      if failure = .refused .alreadyExists then
        if ← isDirectory path then makeDownwards below else throw failure
      else throw failure

/-- Makes a directory and all directories above it that are missing. -/
def makeDirectories (path : String) : Session Unit := do
  let missing ← makeUpwards ((Path.ancestors path).takeWhile fun above =>
    above ≠ "" ∧ Path.parent? above ≠ none)
  makeDownwards missing.reverse

/-- The name of a temporary file. -/
def temporaryName (n : Nat) : String :=
  ".tmp" ++ Decimal.padded 6 n

/-- A name for a temporary file that no node of the tree has. -/
def freshName (tree : Tree) : String :=
  let taken := fun n => tree.nodes.any fun entry => entry.1.getLast? == some (temporaryName n)
  temporaryName (((List.range tree.nodes.length).find? fun n => !taken n).getD tree.nodes.length)

/-- Makes an empty file of a new name in a directory. The answer is its path. -/
def makeTemporary (directory : String) : Session String :=
  call fun disk =>
    let path := Path.join (Path.join disk.currentPath directory) (freshName disk.tree)
    (disk.create path).map fun disk => (path, disk)

end Session

end StyleMonitor
