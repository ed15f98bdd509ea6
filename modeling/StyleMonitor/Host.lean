import StyleMonitor.Container.Run

/-!
The host that containers run on: its files, the record of pulls, and a runtime that answers
commands. Here the stages of a check and of a run follow each other without anything in between.
-/

namespace StyleMonitor

/-- A runtime (`ProcessExecutor`): what comes of a command, and what it does to the files and to the
runtime itself. -/
abbrev Runtime (ρ : Type) := Command → ρ → Volume → Reply × ρ × Volume

/-- A host with a runtime in a state of type `ρ`. -/
structure Host (ρ : Type) where
  volume : Volume := {}
  pulls : Freshness := .memory []
  runtime : ρ

namespace Host

variable {ρ : Type}

/-- Works on the files. A failure that nobody attends to gives `other`. -/
def onFiles {α : Type} (other : α) (session : Session α) : StateM (Host ρ) α := fun host =>
  match session host.volume with
  | (.ok answer, volume) => (answer, { host with volume })
  | (.error _, volume) => (other, { host with volume })

/-- Has the runtime carry out a command. -/
def execute (runtime : Runtime ρ) (command : Command) : StateM (Host ρ) Reply := fun host =>
  let (reply, state, volume) := runtime command host.runtime host.volume
  (reply, { host with runtime := state, volume })

/-- Makes one step of the check of an image. -/
def stepImage (runtime : Runtime ρ) (settings : RunnerSettings) (check : Image.Check)
    (stage : Image.Stage) : StateM (Host ρ) Image.Stage := do
  match stage.command? settings with
  | some command => return stage.afterReply settings (← execute runtime command)
  | none =>
    let host ← get
    let (pulls, stage) ← onFiles (host.pulls, stage) (stage.act check host.pulls)
    modify fun host => { host with pulls }
    return stage

/-- Makes one step of a run. -/
def stepRun (runtime : Runtime ρ) (settings : RunnerSettings) (job : Container.Job)
    (now : Instant) (stage : Container.Stage) : StateM (Host ρ) Container.Stage := do
  let host ← get
  let current := host.volume.disk.currentPath
  match stage.command? settings current job with
  | some command => return stage.afterReply settings current job (← execute runtime command)
  | none =>
    let (pulls, stage) ← onFiles (host.pulls, stage) (stage.act settings job now host.pulls)
    modify fun host => { host with pulls }
    return stage

/-- Repeats a step. -/
def repeated {σ : Type} (step : σ → StateM (Host ρ) σ) : Nat → σ → StateM (Host ρ) σ
  | 0, stage => return stage
  | n + 1, stage => do repeated step n (← step stage)

/-- Makes sure that an image is fresh (`ToolRunner::ensure_image`). A check has four steps at most.
-/
def ensureImage (runtime : Runtime ρ) (settings : RunnerSettings) (check : Image.Check) :
    StateM (Host ρ) (Except Image.PullFault Image.Status) := do
  match ← repeated (stepImage runtime settings check) 4 .consult with
  | .settled result => return result
  | _ => return .ok .cached

/-- Runs the container on a target (`ToolRunner::run`): the path of the report, which need not be
there. A run has six steps at most. -/
def runContainer (runtime : Runtime ρ) (settings : RunnerSettings) (job : Container.Job)
    (now : Instant) : StateM (Host ρ) (Except Container.Fault String) := do
  match ← repeated (stepRun runtime settings job now) 6 .prepare with
  | .ended result => return result
  | _ => return .ok (Path.join job.directory settings.reportFile)

/-- The last recorded pull of the image (`ToolRunner::last_pull`). -/
def lastPull? (settings : RunnerSettings) : StateM (Host ρ) (Option Instant) := do
  let host ← get
  onFiles none (host.pulls.last? settings.cacheKey)

/-- Forgets the last pull of the image, so that the next check pulls it
(`ToolRunner::invalidate_image_cache`). -/
def invalidateImage (settings : RunnerSettings) : StateM (Host ρ) (Except Failure Unit) := do
  let host ← get
  let result ← onFiles (.ok host.pulls)
    (Session.attempt (host.pulls.forget settings.cacheKey))
  match result with
  | .ok pulls => modify fun host => { host with pulls }; return .ok ()
  | .error failure => return .error failure

end Host

end StyleMonitor
