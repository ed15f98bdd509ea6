import StyleMonitor.Disk.Session
import StyleMonitor.Report

/-!
Reports and ignore files on disk. A report that does not exist holds no findings; one that cannot
be read is a failure. An ignore file that cannot be read, for whatever reason, excludes nothing.
-/

namespace StyleMonitor

/-- The exclusions of the ignore file of a root (`ExclusionMatcher::load`). -/
def Exclusions.load (root name : String) : Session Exclusions := do
  match ← Session.attempt (Session.readText (Path.join root name)) with
  | .ok text => return ofText text
  | .error _ => return empty

namespace Report

/-- A report that could not be read (`ReportError`). -/
structure ReadFault where
  path : String
  failure : Failure
  deriving DecidableEq, Repr

/-- The text of the fault. -/
def ReadFault.message (fault : ReadFault) : String :=
  "failed to read report " ++ Text.quoted fault.path ++ ": " ++ fault.failure.message

/-- The findings of the report at a path (`ReportParser::parse_file`). -/
def load (exclusions : Exclusions) (path : String) :
    Session (Except ReadFault FileFindings) := do
  match ← Session.attempt (Session.readText path) with
  | .ok text => return .ok (findings exclusions text)
  | .error failure =>
    if failure.isNotFound then return .ok .empty else return .error ⟨path, failure⟩

end Report

end StyleMonitor
