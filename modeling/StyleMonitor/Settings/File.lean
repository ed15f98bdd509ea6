import StyleMonitor.Disk.AtomicWrite
import StyleMonitor.Settings.Toml
import StyleMonitor.Toml.Edit

/-!
The settings file. A missing file is as good as an empty one.
-/

namespace StyleMonitor.Settings

/-- Why settings cannot be read or changed (`ConfigError`). -/
inductive Fault where
  | unreadable (path : String) (failure : Failure)
  /-- The text is not TOML, or a setting in it is not of its kind. -/
  | meaningless (path : String)
  /-- The text cannot be edited. -/
  | uneditable (path : String)
  | unwritable (path : String) (failure : Failure)
  deriving DecidableEq, Repr

/-- What is said of it. -/
def Fault.message : Fault → String
  | unreadable path failure => "failed to read config at " ++ path ++ ": " ++ failure.message
  | meaningless path => "failed to parse config at " ++ path
  | uneditable path => "config at " ++ path ++ " is not editable TOML"
  | unwritable path failure => "failed to write config at " ++ path ++ ": " ++ failure.message

/-- The failure behind a fault. -/
def Fault.cause? : Fault → Option Failure
  | unreadable _ failure => some failure
  | unwritable _ failure => some failure
  | _ => none

/-- The text of the file, empty if there is none. -/
def fileText (path : String) : Session (Except Fault String) := do
  match ← Session.attempt (Session.readText path) with
  | .ok text => return .ok text
  | .error failure =>
    return if failure.isNotFound then .ok "" else .error (.unreadable path failure)

/-- Reads settings from a file (`StylewatchConfig::read`). -/
def read (path : String) : Session (Except Fault Settings) := do
  match ← fileText path with
  | .error fault => return .error fault
  | .ok text =>
    match ofText? text with
    | some settings => return .ok settings
    | none => return .error (.meaningless path)

/-- Reads settings from a file, and takes the defaults if that fails (`StylewatchConfig::load`). -/
def load (path : String) : Session Settings := do
  return (← read path).toOption.getD {}

/-- The text of a settings file with `enabled` of the table `analysis` set. -/
def withEnabled? (enabled : Bool) (text : String) : Option String :=
  (Toml.Document.ofEditable? text).map fun document =>
    (document.setIn "analysis" "enabled" (.boolean enabled)).text

/-- Sets `enabled` of the table `analysis` in a file, and keeps all else in it
(`StylewatchConfig::set_enabled`). -/
def setEnabled (path : String) (enabled : Bool) : Session (Except Fault Unit) := do
  match ← fileText path with
  | .error fault => return .error fault
  | .ok text =>
    match withEnabled? enabled text with
    | none => return .error (.uneditable path)
    | some text =>
      match ← Session.attempt (Session.atomicWrite path (Text.encode text)) with
      | .ok () => return .ok ()
      | .error failure => return .error (.unwritable path failure)

end StyleMonitor.Settings
