import StyleMonitor.Json.Decode
import StyleMonitor.Path

/-!
Settings: what the user can choose. They come in three tables, and whatever is not written has a
default.
-/

namespace StyleMonitor

/-- When analyses run (`CoordinatorConfig`). -/
structure AnalysisSettings where
  enabled : Bool := true
  /-- How long triggers have to be quiet before another analysis starts, in milliseconds. -/
  debounceMillis : Nat := 500
  /-- Files with these extensions never start an analysis. -/
  bannedExtensions : List String := ["md"]
  /-- Whether only roots that hold C or C++ sources are analyzed. -/
  requireSources : Bool := false
  deriving DecidableEq, Repr

/-- How the checker's container is run (`RunnerConfig`). -/
structure RunnerSettings where
  /-- The program that pulls images and runs containers. -/
  runtime : String := "docker"
  image : String := "ghcr.io/epitech/coding-style-checker:latest"
  /-- Under this key the last pull of the image is recorded. -/
  cacheKey : String := "lastImagePull"
  /-- How long a pulled image counts as fresh, in milliseconds. -/
  cacheMillis : Nat := 86400000
  /-- The most seconds a container may run; 0 stands for no bound. -/
  runTimeoutSeconds : Nat := 300
  /-- The most seconds a pull may take; 0 stands for no bound. -/
  pullTimeoutSeconds : Nat := 600
  /-- The directory of the report, as seen from the target. -/
  reportDirectory : String := ".vscode"
  /-- The name of the report in that directory. -/
  reportFile : String := "coding-style-reports.log"
  /-- Where the container sees the target. -/
  deliveryMount : String := "/mnt/delivery"
  /-- Where the container sees the directory of the report. -/
  reportMount : String := "/mnt/reports"
  deriving DecidableEq, Repr

/-- How reports are read (`ReportConfig`). -/
structure ReportSettings where
  /-- The ignore file that is looked for in each root. -/
  ignoreFile : String := ".gitignore"
  deriving DecidableEq, Repr

/-- All settings (`StylewatchConfig`). -/
structure Settings where
  analysis : AnalysisSettings := {}
  runner : RunnerSettings := {}
  report : ReportSettings := {}
  deriving DecidableEq, Repr

namespace RunnerSettings

/-- A bound in seconds, where 0 stands for none (`optional_secs`). -/
def bound (seconds : Nat) : Option Nat :=
  if seconds = 0 then none else some seconds

/-- The bound on a run of the container, in seconds (`RunnerConfig::run_timeout`). -/
def runTimeout (settings : RunnerSettings) : Option Nat :=
  bound settings.runTimeoutSeconds

/-- The bound on a pull, in seconds (`RunnerConfig::pull_timeout`). -/
def pullTimeout (settings : RunnerSettings) : Option Nat :=
  bound settings.pullTimeoutSeconds

/-- The directory that the report on a target is written to (`RunnerConfig::report_dir_for`). -/
def reportDirectoryFor (settings : RunnerSettings) (target : String) : String :=
  Path.join target settings.reportDirectory

/-- The path of the report on a target (`RunnerConfig::report_path_for`). -/
def reportPathFor (settings : RunnerSettings) (target : String) : String :=
  Path.join (settings.reportDirectoryFor target) settings.reportFile

end RunnerSettings

/-- One setting of a table: its name, and how a written value changes the table. The kind of
value decides how it is read. -/
inductive Setting (τ : Type) where
  | bool (put : τ → Bool → τ)
  /-- A natural number of 64 bits. -/
  | nat (put : τ → Nat → τ)
  | string (put : τ → String → τ)
  | strings (put : τ → List String → τ)

/-- The settings of the table `analysis`, in order. -/
def AnalysisSettings.table : List (String × Setting AnalysisSettings) := [
  ("enabled", .bool fun t v => { t with enabled := v }),
  ("debounce_delay_ms", .nat fun t v => { t with debounceMillis := v }),
  ("banned_extensions", .strings fun t v => { t with bannedExtensions := v }),
  ("require_sources", .bool fun t v => { t with requireSources := v })]

/-- The settings of the table `runner`, in order. -/
def RunnerSettings.table : List (String × Setting RunnerSettings) := [
  ("runtime", .string fun t v => { t with runtime := v }),
  ("image", .string fun t v => { t with image := v }),
  ("cache_key", .string fun t v => { t with cacheKey := v }),
  ("cache_duration_ms", .nat fun t v => { t with cacheMillis := v }),
  ("run_timeout_secs", .nat fun t v => { t with runTimeoutSeconds := v }),
  ("pull_timeout_secs", .nat fun t v => { t with pullTimeoutSeconds := v }),
  ("report_dir", .string fun t v => { t with reportDirectory := v }),
  ("report_file", .string fun t v => { t with reportFile := v }),
  ("delivery_mount", .string fun t v => { t with deliveryMount := v }),
  ("report_mount", .string fun t v => { t with reportMount := v })]

/-- The settings of the table `report`, in order. -/
def ReportSettings.table : List (String × Setting ReportSettings) := [
  ("ignore_file", .string fun t v => { t with ignoreFile := v })]

/-- A setting as a field of a JSON record. -/
def Setting.jsonField {τ : Type} (name : String) : Setting τ → Json.Field τ
  | bool put => .of name Json.Node.asBool put
  | nat put => .of name (Json.Node.asNatBelow (Nat.pow 2 64)) put
  | string put => .of name Json.Node.asString put
  | strings put => .of name (Json.Node.asList Json.Node.asString) put

/-- The table `analysis` from JSON. -/
def AnalysisSettings.decoder : Json.Decoder AnalysisSettings :=
  Json.asRecord (table.map fun (name, setting) => setting.jsonField name) {}

/-- The table `runner` from JSON. -/
def RunnerSettings.decoder : Json.Decoder RunnerSettings :=
  Json.asRecord (table.map fun (name, setting) => setting.jsonField name) {}

end StyleMonitor
