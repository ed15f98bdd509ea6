import StyleMonitor.Decimal
import StyleMonitor.FileFindings
import StyleMonitor.Path

/-!
Diagnostics: findings as they are shown, held by the path of their file. Paths are told apart by
their components, so two spellings of one path share an entry, under the spelling that came
first. A store that was disposed of stays empty.
-/

namespace StyleMonitor

/-- A finding as it is shown. -/
structure Diagnostic where
  level : Level
  /-- The line, counted from 0. -/
  line : UInt32
  code : String
  /-- Code and description of the rule. -/
  text : String
  deriving DecidableEq, Repr

/-- How a finding is shown (`Diagnostic::from_finding`). -/
def Diagnostic.ofFinding (finding : Finding) : Diagnostic :=
  ⟨finding.severity.level, finding.line, finding.code, finding.text⟩

/-- The diagnostics of files, by path (`DiagnosticsStore`). -/
structure Diagnostics where
  files : List (String × List Diagnostic) := []
  disposed : Bool := false
  deriving DecidableEq, Repr

namespace Diagnostics

/-- Files without the one at a path. -/
def removePath (path : String) (files : List (String × List Diagnostic)) :
    List (String × List Diagnostic) :=
  files.filter fun entry => !Path.same entry.1 path

/-- Files with this list at a path, whose first spelling stays. -/
def setPath (path : String) (list : List Diagnostic) :
    List (String × List Diagnostic) → List (String × List Diagnostic)
  | [] => [(path, list)]
  | (other, old) :: rest =>
    if Path.same other path then (other, list) :: rest else (other, old) :: setPath path list rest

/-- Shows these findings for a path, in place of those shown before (`DiagnosticsStore::update`). -/
def update (store : Diagnostics) (path : String) (findings : List Finding) : Diagnostics :=
  if store.disposed then store
  else if findings = [] then { store with files := removePath path store.files }
  else { store with files := setPath path (findings.map Diagnostic.ofFinding) store.files }

/-- Drops the diagnostics of all files at or below a root (`DiagnosticsStore::clear_target`). -/
def clearTarget (store : Diagnostics) (root : String) : Diagnostics :=
  { store with files := store.files.filter fun entry => !Path.isWithin entry.1 root }

/-- Drops all diagnostics (`DiagnosticsStore::clear_all`). -/
def clearAll (store : Diagnostics) : Diagnostics :=
  { store with files := [] }

/-- Drops all diagnostics and takes no more (`DiagnosticsStore::dispose`). -/
def dispose (_ : Diagnostics) : Diagnostics :=
  { files := [], disposed := true }

/-- The files in the order of their paths (`DiagnosticsStore::snapshot`). -/
def snapshot (store : Diagnostics) : List (String × List Diagnostic) :=
  store.files.mergeSort fun a b => Path.le a.1 b.1

/-- Whether no file has diagnostics. -/
def isEmpty (store : Diagnostics) : Bool :=
  store.files.isEmpty

/-- The number of diagnostics (`DiagnosticsSnapshot::total`). -/
def total (store : Diagnostics) : Nat :=
  (store.files.flatMap fun entry => entry.2).length

/-- The number of diagnostics of a level (`DiagnosticsSnapshot::count`). -/
def count (store : Diagnostics) (level : Level) : Nat :=
  (store.files.flatMap fun entry => entry.2).countP fun item => item.level = level

/-- The diagnostics of a path (`DiagnosticsSnapshot::get`). -/
def get? (store : Diagnostics) (path : String) : Option (List Diagnostic) :=
  (store.files.find? fun entry => Path.same entry.1 path).map (·.2)

/-- A diagnostic on a line of its own, with its file as seen from a root and its line counted
from 1. -/
def Diagnostic.shown (root path : String) (item : Diagnostic) : String :=
  (Path.relativeTo? path root).getD path ++ ":" ++ Decimal.text (item.line.toNat + 1) ++ ": " ++
    item.level.label ++ " " ++ item.text

/-- All diagnostics, a line each, in the order of their paths (`finding_lines`). -/
def lines (store : Diagnostics) (root : String) : List String :=
  store.snapshot.flatMap fun (path, items) => items.map (Diagnostic.shown root path)

end Diagnostics

end StyleMonitor
