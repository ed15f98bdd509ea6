import StyleMonitor.Container.Run
import StyleMonitor.Diagnostics
import StyleMonitor.Outcome
import StyleMonitor.Report.File

/-!
One analysis of a root, step by step: the container is run, its report is read, and the findings
are published. Publishing goes under a lock that toggles take as well, so what is published was
enabled all the while. A failure is told to the user once.
-/

namespace StyleMonitor

/-- What analyses work with, and what does not change meanwhile. -/
structure AnalysisSetup where
  runner : RunnerSettings := {}
  /-- The ignore file that is looked for in each root. -/
  ignoreFile : String := ".gitignore"

/-- What analyses share with each other and with toggles (`Inner`). -/
structure Shared where
  enabled : Bool := true
  /-- The task that holds the lock on publishing. -/
  publisher : Option Nat := none
  shown : Diagnostics := {}
  volume : Volume := {}
  pulls : Freshness := .memory []
  /-- What the user was told, in order. -/
  notes : List String := []
  clock : Instant

/-- What is shared once a task holds no lock any more. -/
def Shared.releaseBy (task : Nat) (shared : Shared) : Shared :=
  if shared.publisher = some task then { shared with publisher := none } else shared

/-- Where an analysis stands (`Inner::analyze`). -/
inductive Analysis where
  /-- It is to be seen whether analyses are enabled. -/
  | start
  /-- What is shown of the root is to be cleared. -/
  | clear
  | container (stage : Container.Stage)
  /-- The report is to be read. -/
  | read (path : String)
  /-- The lock on publishing is to be taken. -/
  | acquire (findings : FileFindings)
  /-- With the lock held, it is to be seen whether analyses are enabled. -/
  | check (findings : FileFindings)
  /-- With the lock held, these files are to be shown; `total` counts the findings of all. -/
  | publish (files : List (String × List Finding)) (total : Nat)
  /-- The lock is to be given back. -/
  | release (outcome : Outcome)
  /-- After a failure, it is to be seen whether analyses are enabled. -/
  | fault (message : String)
  /-- The user is to be told of a failure. -/
  | notify (message : String)
  | ended (outcome : Outcome)

namespace Analysis

/-- What the user is told of a failure. -/
def noteText (message : String) : String :=
  "Coding style check failed: " ++ message

/-- Where an analysis stands when the container's run stands at a stage. -/
def ofStage : Container.Stage → Analysis
  | .ended (.ok path) => read path
  | .ended (.error why) => .fault why.message
  | stage => container stage

/-- Reads a report below a root (`Inner::execute`). -/
def readReport (setup : AnalysisSetup) (root path : String) :
    Session (Except String FileFindings) := do
  let exclusions ← Exclusions.load root setup.ignoreFile
  match ← Report.load exclusions path with
  | .ok findings => return .ok findings
  | .error why => return .error why.message

/-- Works on the files. A failure that nobody attends to gives `other`. -/
def onFiles {α : Type} (other : α) (session : Session α) (shared : Shared) : α × Shared :=
  match session shared.volume with
  | (.ok answer, volume) => (answer, { shared with volume })
  | (.error _, volume) => (other, { shared with volume })

/-- The command that an analysis waits for. -/
def command? (setup : AnalysisSetup) (root : String) (shared : Shared) :
    Analysis → Option Command
  | container stage =>
    stage.command? setup.runner shared.volume.disk.currentPath (.on setup.runner root)
  | _ => none

/-- Where an analysis stands after the reply to its command. -/
def afterReply (setup : AnalysisSetup) (root : String) (shared : Shared) (reply : Reply) :
    Analysis → Analysis
  | container stage =>
    ofStage (stage.afterReply setup.runner shared.volume.disk.currentPath
      (.on setup.runner root) reply)
  | analysis => analysis

/-- One step of an analysis of a root by a task. There is none while the lock is not to be had,
while a command is under way, and at the end. -/
def step (setup : AnalysisSetup) (root : String) (task : Nat) (shared : Shared) :
    Analysis → Option (Analysis × Shared)
  | start => some (if shared.enabled then clear else ended (.skipped .disabled), shared)
  | clear =>
    some (container .prepare, { shared with shown := shared.shown.clearTarget root })
  | container stage =>
    if (command? setup root shared (container stage)).isSome then none
    else
      let act := stage.act setup.runner (.on setup.runner root) shared.clock shared.pulls
      let ((pulls, stage), shared) := onFiles (shared.pulls, stage) act shared
      some (ofStage stage, { shared with pulls })
  | read path =>
    match onFiles (.error "") (readReport setup root path) shared with
    | (.ok findings, shared) => some (acquire findings, shared)
    | (.error message, shared) => some (fault message, shared)
  | acquire findings =>
    match shared.publisher with
    | none => some (check findings, { shared with publisher := some task })
    | some _ => none
  | check findings =>
    some (if shared.enabled then publish findings.files findings.totalCount
      else release (.skipped .disabled), shared)
  | publish [] total => some (release (.completed total), shared)
  | publish ((path, findings) :: rest) total =>
    some (publish rest total,
      { shared with shown := shared.shown.update (Path.join root path) findings })
  | release outcome => some (ended outcome, { shared with publisher := none })
  | fault message =>
    some (if shared.enabled then notify message else ended (.skipped .disabled), shared)
  | notify message =>
    some (ended (.failed message), { shared with notes := shared.notes ++ [noteText message] })
  | ended _ => none

end Analysis

end StyleMonitor
