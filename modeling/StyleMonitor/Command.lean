import StyleMonitor.Decimal
import StyleMonitor.Disk.Failure
import StyleMonitor.Text.Fields

/-!
Commands: programs with their arguments, as they are handed to the system, and what comes of
them.
-/

namespace StyleMonitor

/-- A program to be started (`CommandSpec`). Its arguments are handed over as they are. -/
structure Command where
  program : String
  arguments : List String
  /-- After so many milliseconds the program is stopped. -/
  timeout : Option Nat := none
  deriving DecidableEq, Repr

/-- What a command is for, as its first arguments tell (`CommandKind`). -/
inductive Purpose where
  | pull
  | prune
  | run
  | other
  deriving DecidableEq, Repr

namespace Command

/-- A command as it is shown. -/
def text (command : Command) : String :=
  String.join (command.program :: command.arguments.map (" " ++ ·))

/-- The first argument (`CommandSpec::subcommand`). -/
def subcommand? (command : Command) : Option String :=
  command.arguments.head?

/-- What a command is for (`CommandKind::of`). -/
def purpose (command : Command) : Purpose :=
  match command.arguments with
  | "pull" :: _ => .pull
  | "image" :: "prune" :: _ => .prune
  | "run" :: _ => .run
  | _ => .other

/-- The directory of the host in a mount: what stands before the last colon. -/
def mountSource? (mount : String) : Option String :=
  (Text.cutLast ':' mount.toList).map fun (source, _) => String.ofList source

/-- The directories of the host that a command mounts (`host_mounts`): each argument after an
argument `-v`. -/
def hostMounts (command : Command) : List String :=
  (command.arguments.zip command.arguments.tail).filterMap fun (flag, mount) =>
    if flag = "-v" then mountSource? mount else none

end Command

/-- How a program ended (`ProcessExit`). -/
inductive Exit where
  | code (number : Int)
  | signal
  deriving DecidableEq, Repr

namespace Exit

/-- Whether a program ended well. -/
def isSuccess (exit : Exit) : Bool :=
  exit = code 0

/-- The exit code, if the program ended by itself. -/
def code? : Exit → Option Int
  | code number => some number
  | signal => none

/-- An end as it is shown. -/
def text : Exit → String
  | code number => "exit code " ++ Decimal.intText number
  | signal => "terminated by signal"

end Exit

/-- What a program left behind when it ended (`ProcessOutput`). -/
structure Output where
  exit : Exit := .code 0
  stdout : String := ""
  stderr : String := ""
  deriving DecidableEq, Repr

/-- What comes of a command: an output, or a failure if the program cannot be started or takes
too long. -/
abbrev Reply := Except Failure Output

end StyleMonitor
