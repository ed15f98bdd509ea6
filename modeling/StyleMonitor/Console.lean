import StyleMonitor.Coordinator.Timeline
import StyleMonitor.Invocation.Help
import StyleMonitor.Program
import StyleMonitor.Settings.File
import StyleMonitor.Settings.Location
import StyleMonitor.Workspace.Sources

/-!
The program at a console: what each request does to the files, what it writes, and the status it
ends with.
-/

namespace StyleMonitor

/-- What the program finds when it is started. -/
structure Circumstances where
  around : Surroundings := {}
  /-- The user's home. -/
  home : String
  now : Instant
  /-- What can be read from the standard input. -/
  input : String := ""
  /-- The number that the system gives the program's thread. -/
  thread : Nat := 30

/-- The files, and the lines that have been written. -/
structure Console where
  volume : Volume := {}
  stdout : List String := []
  stderr : List String := []
  deriving DecidableEq, Repr

/-- What ends a request early. -/
structure Complaint where
  message : String
  cause : Option String := none
  deriving DecidableEq, Repr

/-- The lines that are written of a complaint. -/
def Complaint.lines (complaint : Complaint) : List String :=
  let causeLines := match complaint.cause with
    | some cause => ["", "Caused by:", "    " ++ cause]
    | none => []
  ("Error: " ++ complaint.message) :: causeLines

/-- Work at a console. -/
abbrev Work := ExceptT Complaint (StateM Console)

namespace Console

/-- The status at the end of a program that breaks off. -/
def brokenOff : Nat := 101

/-- The status at the end of a request that came to nothing. -/
def unsuccessful : Nat := 2

/-- Writes a line. -/
def say (line : String) : Work Unit :=
  modify fun console => { console with stdout := console.stdout ++ [line] }

/-- Writes a line of warning. -/
def warn (line : String) : Work Unit :=
  modify fun console => { console with stderr := console.stderr ++ [line] }

/-- Warns of a fault. -/
def report (message : String) : Work Unit :=
  warn ("error: " ++ message)

/-- Works on the files. -/
def onFiles {α : Type} (session : Session α) : Work (Except Failure α) := fun console =>
  let (result, volume) := session console.volume
  (.ok result, { console with volume })

/-- Lets a host work on the files. -/
def onHost {α : Type} (record : String) (work : StateM (Host Unit) α) : Work α := fun console =>
  let (answer, host) := work ⟨console.volume, .file record, ()⟩
  (.ok answer, { console with volume := host.volume })

/-- The runtime that starts programs. -/
def runtime (around : Surroundings) : Runtime Unit := fun command _ volume =>
  let (reply, volume) := command.carryOut around volume
  (reply, (), volume)

/-- The files that the log may be written to, in order of preference (`log_file_candidates`). -/
def logFiles (home : String) : List String :=
  [Settings.appDirectory home, ".stylewatch"].map fun directory =>
    Path.join (Path.join directory "logs") "stylewatch.log"

/-- Makes a log file with the directories above it. -/
def openLogFile (path : String) : Session Unit := do
  Session.makeDirectories (Session.directoryOf path)
  if ← Session.isDirectory path then throw (.refused .isADirectory)
  if ← Session.isThere path then return ()
  Session.write path []

/-- Opens the first log file that can be opened (`open_log_file`). -/
def openLog : List String → Session Unit
  | [] => return ()
  | path :: rest => do
    match ← Session.attempt (openLogFile path) with
    | .ok () => return ()
    | .error _ => openLog rest

/-- A root as the path that it really has (`canonical_root`). -/
def canonicalRoot (root : String) : Work String := do
  match ← onFiles (Session.ask (·.canonical root)) with
  | .ok path => return path
  | .error failure => throw ⟨"resolving " ++ root, some failure.message⟩

/-- The coordinator after triggers were issued and all of them were answered (`build_coordinator`).
What the user was told meanwhile was written. -/
def coordinate (here : Circumstances) (settings : Settings) (roots triggers : List String) :
    Work Coordinator.State := do
  let volume := (← get).volume
  let current := volume.disk.currentPath
  let analysis := settings.analysis
  let stage : Coordinator.Stage Unit := {
    setup := {
      analysis := { runner := settings.runner, ignoreFile := settings.report.ignoreFile }
      workspace :=
        Workspace.make current roots analysis.bannedExtensions analysis.requireSources
      holdsSources := fun disk root => Sources.areHeld disk here.home root }
    runtime := runtime here.around
    debounce := analysis.debounceMillis }
  let shared : Shared := {
    enabled := analysis.enabled
    volume
    pulls := .file (Settings.recordPath here.home)
    clock := here.now }
  let start : Coordinator.Timeline Unit := { state := { shared }, runtime := () }
  let issued := start.after stage (triggers.map Coordinator.Event.trigger)
  let state := (issued.advance stage analysis.debounceMillis).state
  modify fun console => { console with volume := state.shared.volume }
  state.shared.notes.forM report
  return state

/-- Analyzes a project once and writes its findings (`check`). -/
def check (here : Circumstances) (settings : Settings) (root : String) : Work Nat := do
  let root ← canonicalRoot root
  let state ← coordinate here settings [root] [root]
  (state.shared.shown.lines root).forM say
  let outcome := (state.answers.lookup 0).getD .cancelled
  match outcome with
  | .skipped (.invalidTarget fault) => report fault.message
  | outcome => say outcome.statusLine
  return outcome.exitCode

/-- The lines of a text without blanks around them, the empty ones left out. -/
def trimmedLines (text : String) : List String :=
  ((Text.linesOf text).map Text.trimmed).filter (· ≠ "")

/-- What is written of the answer to a trigger. -/
def answerLine? (paths : List String) (answer : Nat × Outcome) : Option String :=
  match answer with
  | (_, .skipped (.invalidTarget _)) => none
  | (id, outcome) => paths[id]?.map fun path => path ++ ": " ++ outcome.statusLine

/-- Analyzes projects again for each changed file that is named on the standard input (`watch`). -/
def watch (here : Circumstances) (settings : Settings) (roots : List String) : Work Nat := do
  let roots ← roots.mapM canonicalRoot
  let current := (← get).volume.disk.currentPath
  warn ("Watching " ++ Decimal.text roots.length ++
    " root(s); reading changed paths from stdin")
  let paths := (trimmedLines here.input).map (Path.join current)
  let state ← coordinate here settings roots paths
  (state.answers.filterMap (answerLine? paths)).forM say
  return 0

/-- Turns analysis on or off (`set_enabled`). -/
def setEnabled (config : String) (enabled : Bool) : Work Nat := do
  match ← onFiles (Settings.setEnabled config enabled) with
  | .ok (.ok ()) =>
    say ("Coding style analysis " ++ if enabled then "enabled" else "disabled")
    return 0
  | .ok (.error fault) => throw ⟨fault.message, fault.cause?.map Failure.message⟩
  | .error failure => throw ⟨failure.message, none⟩

/-- The settings as they are shown, each under its name. -/
def settingRows (config : String) (settings : Settings) : List (String × String) := [
  ("config", config),
  ("enabled", if settings.analysis.enabled then "true" else "false"),
  ("debounce", Decimal.text settings.analysis.debounceMillis ++ "ms"),
  ("runtime", settings.runner.runtime),
  ("image", settings.runner.image),
  ("freshness", Decimal.text (settings.runner.cacheMillis / 3600000) ++ "h")]

/-- A row of what is shown: the name, and a value in a column of its own. -/
def row (name value : String) : String :=
  let label := name ++ ":"
  label ++ String.ofList (List.replicate (16 - label.length) ' ') ++ value

/-- What is written when the program breaks off over a time that no calendar reaches. -/
def noSuchTimeLines (thread : Nat) : List String := [
  "",
  "thread 'main' (" ++ Decimal.text thread ++ ") panicked at /usr/local/cargo/registry/src/" ++
    "index.crates.io-1949cf8c6b5b557f/chrono-0.4.45/src/datetime/mod.rs:1931:38:",
  "No such local time",
  "note: run with `RUST_BACKTRACE=1` environment variable to display a backtrace"]

/-- Shows the settings and the last pull (`status`). Over a time that no calendar reaches the
program breaks off. -/
def status (here : Circumstances) (config : String) (settings : Settings) : Work Nat := do
  (settingRows config settings).forM fun (name, value) => say (row name value)
  match ← onHost (Settings.recordPath here.home) (Host.lastPull? settings.runner) with
  | none => say (row "last pull" "never")
  | some pull =>
    match pull.text? with
    | some text => say (row "last pull" text)
    | none =>
      (noSuchTimeLines here.thread).forM warn
      return brokenOff
  say (row "ignore file" settings.report.ignoreFile)
  return 0

/-- Forgets the last pull, and pulls the image (`refresh`). -/
def refresh (here : Circumstances) (settings : Settings) : Work Nat := do
  let record := Settings.recordPath here.home
  let runner := settings.runner
  match ← onHost record (Host.invalidateImage runner) with
  | .error failure => throw ⟨"clearing the image freshness record", some failure.message⟩
  | .ok () => pure ()
  let check : Image.Check := ⟨runner.cacheKey, here.now, runner.cacheMillis⟩
  match ← onHost record (Host.ensureImage (runtime here.around) runner check) with
  | .ok .pulled => say ("Pulled " ++ runner.image); return 0
  | .ok .cached => say (runner.image ++ " is up to date"); return 0
  | .error fault => report fault.message; return unsuccessful

/-- Does what an invocation asks for. -/
def perform (here : Circumstances) (invocation : Invocation) : Work Nat := do
  let config := Settings.filePath invocation.config
    (here.around.bindings.lookup Settings.variableName) here.home
  let settings := (← onFiles (Settings.load config)).toOption.getD {}
  match invocation.request with
  | .check root => check here settings root
  | .watch roots => watch here settings roots
  | .enable => setEnabled config true
  | .disable => setEnabled config false
  | .status => status here config settings
  | .refresh => refresh here settings

/-- What is written of arguments that come to no request. Help and the version are written like
any answer, and faults like warnings. -/
def refuse (refusal : Refusal) (console : Console) : Console :=
  match refusal with
  | .help topic => { console with stdout := Invocation.helpLines topic }
  | .version => { console with stdout := [Invocation.versionLine] }
  | .fault fault => { console with stderr := Invocation.faultLines fault }

/-- Runs the program on arguments: the status at its end, and the files and lines that it leaves
behind. -/
def run (here : Circumstances) (arguments : List String) (volume : Volume) : Nat × Console :=
  match Invocation.ofArguments arguments with
  | .error refusal => (Invocation.exitCode refusal, refuse refusal { volume })
  | .ok invocation =>
    let work : Work Nat := do
      let _ ← onFiles (openLog (logFiles here.home))
      perform here invocation
    match work { volume } with
    | (.ok status, console) => (status, console)
    | (.error complaint, console) =>
      (unsuccessful, { console with stderr := console.stderr ++ complaint.lines })

end Console

end StyleMonitor
