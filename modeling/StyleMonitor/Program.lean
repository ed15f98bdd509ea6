import StyleMonitor.Command
import StyleMonitor.Shell.Run
import StyleMonitor.Text.Readable

/-!
Starting programs: a command's program is found on the files of a volume or among the programs
of the system, and what comes of it is the reply to the command. Programs on the volume are
shell scripts.
-/

namespace StyleMonitor

/-- What programs are started in. -/
structure Surroundings where
  /-- The directories in which programs are looked for. -/
  search : List String := []
  /-- The variables of the environment. -/
  bindings : List (String × String) := []
  deriving DecidableEq, Repr

/-- A program that was found. -/
inductive Program where
  /-- The program of the system at a path. -/
  | ofSystem (path name : String)
  | script (path : String) (content : Bytes)
  deriving DecidableEq, Repr

namespace Program

/-- The program of the system at a path. -/
def atSystemPath? (path : String) : Option Program :=
  match Path.parent? path, Path.fileName? path with
  | some directory, some name =>
    if directory ∈ Shell.systemDirectories ∧ Shell.isSystemName name then
      some (ofSystem path name)
    else none
  | _, _ => none

/-- Places of the system that hold no program. -/
def systemPlaces : List String := [
  "/bin", "/dev", "/dev/null", "/etc", "/etc/hosts", "/etc/passwd", "/home", "/lib", "/proc",
  "/sbin", "/sys", "/usr", "/usr/bin", "/usr/lib", "/usr/local", "/usr/local/bin", "/usr/sbin",
  "/usr/share", "/var"]

/-- The program at a path, or why there is none that can be started. -/
def atPath (disk : Disk) (path : String) : Except Failure Program :=
  match atSystemPath? path with
  | some program =>
    if Path.endsInSlash path then .error (.refused .notADirectory) else .ok program
  | none =>
    match disk.status path with
    | .ok (.file content true) => .ok (script path content)
    | .ok _ => .error (.refused .permissionDenied)
    | .error failure =>
      if systemPlaces.any (Path.same path) then .error (.refused .permissionDenied)
      else .error failure

/-- Of several failures to find a program, the one that is reported: that it may not be started,
else that it is nowhere. -/
def worst (failures : List Failure) : Failure :=
  if .refused .permissionDenied ∈ failures then .refused .permissionDenied
  else .refused .notFound

/-- The program that a name or a path stands for. A name is looked for in the directories of the
search; a path counts from the current directory. -/
def find (around : Surroundings) (disk : Disk) (program : String) : Except Failure Program :=
  if '/' ∈ program.toList then atPath disk (Path.join disk.currentPath program)
  else if program = "" then .error (.refused .notFound)
  else if program ∈ [".", ".."] then .error (.refused .permissionDenied)
  else if Disk.maxName < Text.size program then .error (.refused .nameTooLong)
  else
    let results := around.search.map fun directory => atPath disk (Path.join directory program)
    match results.findSome? Except.toOption with
    | some program => .ok program
    | none => .error (worst (results.filterMap fun
      | .ok _ => none
      | .error failure => some failure))

/-- Whether the interpreter of a script is to be had. -/
def interpreterFault? (disk : Disk) (content : Bytes) : Option Failure :=
  match Shell.interpreter? (Shell.ofBytes content) with
  | none => some (.refused .notExecutableFormat)
  | some ([], _) => some (.refused .notExecutableFormat)
  | some (interpreter, _) =>
    if Shell.isShellPath interpreter then none
    else match atPath disk (Shell.toText interpreter) with
      | .ok _ => none
      | .error failure => some failure

/-- The most steps that a program makes. -/
def stepLimit : Nat := 100000

/-- Runs a program to its end. -/
def run (program : Program) (arguments : List String) (machine : Shell.Machine) :
    Shell.Flow × Shell.Machine :=
  let arguments := arguments.map Shell.ofText
  match program with
  | ofSystem path name =>
    if Shell.isShellName name.toList then
      Shell.runShell stepLimit {} (Shell.ofText path) false arguments machine
    else match Shell.utility? false name with
      | some utility => (.next, machine.useUtility {} utility (Shell.ofText path) arguments)
      | none => Shell.runCommand stepLimit false {} (Shell.ofText name) arguments machine
  | script path content =>
    Shell.runFile stepLimit {} (Shell.ofText path) (Shell.ofBytes content) arguments machine

end Program

namespace Command

/-- The failure of a command that took too long. -/
def lateness (command : Command) : Failure :=
  .reported .timedOut (command.program ++ " timed out after " ++
    Decimal.text (command.timeout.getD 0 / 1000) ++ "s")

/-- What comes of a program that has ended, or has been stopped. -/
def replyOf (command : Command) (flow : Shell.Flow) (machine : Shell.Machine) : Reply :=
  if flow = .late ∨ command.timeout.any (· ≤ machine.elapsed) then .error command.lateness
  else
    .ok {
      exit := if flow.isCutOff then .signal else .code machine.scope.status
      stdout := captured machine.stdout
      stderr := captured machine.stderr }
where
  /-- What is kept of what was written. -/
  captured (chunks : List (List Char)) : String :=
    Text.captured (Shell.toBytes (Shell.Machine.written chunks))

/-- Starts a program with nothing to read, and waits for its end (`run_command`). -/
def carryOut (around : Surroundings) (command : Command) (volume : Volume) : Reply × Volume :=
  if (command.program :: command.arguments).any (·.toList.contains '\x00') then
    (.error (.reported .invalidInput "nul byte found in provided data"), volume)
  else
    match Program.find around volume.disk command.program with
    | .error failure => (.error failure, volume)
    | .ok program =>
      let fault? := match program with
        | .script _ content => Program.interpreterFault? volume.disk content
        | .ofSystem _ _ => none
      match fault? with
      | some failure => (.error failure, volume)
      | none =>
        let bindings := around.bindings.map fun (name, value) =>
          (Shell.ofText name, Shell.ofText value)
        let (flow, machine) := program.run command.arguments {
          scope := { bindings }
          volume
          limit := command.timeout
          search := around.search
          exported := bindings.map (·.1) }
        let disk := { machine.volume.disk with current := volume.disk.current }
        (command.replyOf flow machine, { machine.volume with disk })

end Command

end StyleMonitor
