import StyleMonitor.Path

/-!
Where settings and records are kept: in a directory of the user's home, unless the settings file
is named otherwise.
-/

namespace StyleMonitor.Settings

/-- The variable that names the settings file (`CONFIG_ENV`). -/
def variableName : String := "STYLEWATCH_CONFIG"

/-- The directory of the program in the user's home (`app_dir`). -/
def appDirectory (home : String) : String :=
  Path.join home ".stylewatch"

/-- The settings file (`config_path`): the one named explicitly, else the one that the variable
names, if it names any, else the one in the user's home. -/
def filePath (explicit fromVariable : Option String) (home : String) : String :=
  match explicit, fromVariable with
  | some path, _ => path
  | none, some path => if path = "" then Path.join (appDirectory home) "config.toml" else path
  | none, none => Path.join (appDirectory home) "config.toml"

/-- The record of last pulls (`state_path`). -/
def recordPath (home : String) : String :=
  Path.join (appDirectory home) "state.json"

end StyleMonitor.Settings
