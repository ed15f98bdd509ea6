import StyleMonitor.Container.Image
import StyleMonitor.Path
import StyleMonitor.Path.Raw
import StyleMonitor.Text.Quoted

/-!
Running the checker's container on a target. The report of an earlier run is discarded first; the
container is run with the image that is there, even if a pull failed. A run goes in stages, so
that other work can come between them.
-/

namespace StyleMonitor.Container

/-- Why a run gave no report (`ToolExecutionError`). -/
inductive Fault where
  | noDirectory (path : String) (failure : Failure)
  | notStarted (program : String) (failure : Failure)
  | unsuccessful (exit : Exit) (stderr : String)
  | timedOut (seconds : Nat)
  deriving DecidableEq, Repr

namespace Fault

/-- The text of a fault. -/
def message : Fault → String
  | noDirectory path failure =>
    "failed to create report directory " ++ Text.quoted path ++ ": " ++ failure.message
  | notStarted program failure => "failed to start " ++ program ++ ": " ++ failure.message
  | unsuccessful exit stderr => "container execution failed (" ++ exit.text ++ "): " ++ stderr
  | timedOut seconds => "container run timed out after " ++ Decimal.text seconds ++ "s"

/-- The exit code of the container, if it ended by itself and badly
(`ToolExecutionError::exit_code`). -/
def exitCode? : Fault → Option Int
  | unsuccessful exit _ => exit.code?
  | _ => none

/-- What a container that ended badly wrote about it (`ToolExecutionError::stderr`). -/
def stderr? : Fault → Option String
  | unsuccessful _ stderr => some stderr
  | _ => none

end Fault

/-- What is run: the target, and the directory for its report. -/
structure Job where
  target : String
  directory : String
  deriving DecidableEq, Repr

/-- The job on a target whose report goes where the settings say. -/
def Job.on (settings : RunnerSettings) (target : String) : Job :=
  ⟨target, settings.reportDirectoryFor target⟩

/-- A mount of a directory of the host. An argument is a text, so the path is put in as it is
shown. -/
def mount (source : RawPath) (destination : String) : String :=
  Text.lossy source ++ ":" ++ destination

/-- The command of `ToolRunner::run` that runs the container on a target, with a directory for the
report. Only absolute paths can be mounted. -/
def commandOn (settings : RunnerSettings) (current : Option RawPath) (target directory : RawPath) :
    Command :=
  ⟨settings.runtime,
    ["run", "--rm", "-i",
      "-v", mount (RawPath.absolute current target) settings.deliveryMount,
      "-v", mount (RawPath.absolute current directory) settings.reportMount,
      settings.image, settings.deliveryMount, settings.reportMount],
    Image.inMillis settings.runTimeout⟩

/-- The command that runs the container for a job. -/
def runCommand (settings : RunnerSettings) (current : String) (job : Job) : Command :=
  commandOn settings (some (Text.encode current)) (Text.encode job.target)
    (Text.encode job.directory)

/-- Where the report of a job is found. -/
def reportPath (settings : RunnerSettings) (current : String) (job : Job) : String :=
  Path.join (Path.absolute current job.directory) settings.reportFile

/-- Where a run stands (`ToolRunner::run`). -/
inductive Stage where
  /-- The directory is to be made, and an old report to be discarded. -/
  | prepare
  /-- The image is being checked. -/
  | image (check : Image.Check) (stage : Image.Stage)
  /-- The container is running. -/
  | run
  | ended (result : Except Fault String)

namespace Stage

/-- The command that a stage waits for. -/
def command? (settings : RunnerSettings) (current : String) (job : Job) : Stage → Option Command
  | image _ stage => stage.command? settings
  | run => some (runCommand settings current job)
  | _ => none

/-- The container's run follows when the check of the image is settled, in whatever way. -/
def ofImage (check : Image.Check) : Image.Stage → Stage
  | .settled _ => run
  | stage => image check stage

/-- What a reply to the container's run comes to. -/
def afterRun (settings : RunnerSettings) (current : String) (job : Job) :
    Reply → Except Fault String
  | .ok output =>
    if output.exit.isSuccess then .ok (reportPath settings current job)
    else .error (.unsuccessful output.exit (Text.trimmed output.stderr))
  | .error failure =>
    if failure.isTimeout then .error (.timedOut (settings.runTimeout.getD 0))
    else .error (.notStarted settings.runtime failure)

/-- The stage after the reply to a command. -/
def afterReply (settings : RunnerSettings) (current : String) (job : Job) (reply : Reply) :
    Stage → Stage
  | image check stage => ofImage check (stage.afterReply settings reply)
  | run => ended (afterRun settings current job reply)
  | stage => stage

/-- The stage after one that waits for no command, at the time `now`. -/
def act (settings : RunnerSettings) (job : Job) (now : Instant) (pulls : Freshness) :
    Stage → Session (Freshness × Stage)
  | prepare => do
    match ← Session.attempt (Session.makeDirectories job.directory) with
    | .error failure => return (pulls, ended (.error (.noDirectory job.directory failure)))
    | .ok () => do
      Session.ignoring (Session.remove (Path.join job.directory settings.reportFile))
      return (pulls, image ⟨settings.cacheKey, now, settings.cacheMillis⟩ .consult)
  | image check stage => do
    let (pulls, stage) ← stage.act check pulls
    return (pulls, ofImage check stage)
  | stage => return (pulls, stage)

end Stage

end StyleMonitor.Container
