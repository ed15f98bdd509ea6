import StyleMonitor.Exclusion
import StyleMonitor.FileFindings
import StyleMonitor.Report.Line

/-!
Reports: the text that the checker writes. Blank lines are skipped, lines that hold no finding
are set aside with the reason, and findings in test directories or at excluded paths are left
out. How one line is treated does not depend on any other.
-/

namespace StyleMonitor.Report

/-- Whether findings at a path are kept (`ReportParser::accepts`). -/
def accepts (exclusions : Exclusions) (path : String) : Bool :=
  !isTestPath path.toList && !exclusions.excludes path

/-- What one line of a report comes to. -/
inductive Entry where
  | blank
  | malformed (fault : Fault)
  /-- A finding in a test directory or at an excluded path. -/
  | leftOut (line : Line)
  | kept (line : Line)
  deriving DecidableEq, Repr

/-- What the line at position `index` comes to. -/
def entry (exclusions : Exclusions) (index : Nat) (raw : String) : Entry :=
  if Text.trim raw.toList = [] then .blank
  else match Line.read index raw with
    | .error fault => .malformed fault
    | .ok line => if accepts exclusions line.path then .kept line else .leftOut line

/-- What the lines from position `index` on come to. -/
def entriesFrom (exclusions : Exclusions) : Nat → List String → List Entry
  | _, [] => []
  | index, raw :: rest => entry exclusions index raw :: entriesFrom exclusions (index + 1) rest

/-- What the lines of a report come to, in order. -/
def entries (exclusions : Exclusions) (text : String) : List Entry :=
  entriesFrom exclusions 1 (Text.linesOf text)

/-- The lines that were kept. -/
def keptLines (entries : List Entry) : List Line :=
  entries.filterMap fun
    | .kept line => some line
    | _ => none

/-- The faults of the lines that hold no finding. -/
def faults (entries : List Entry) : List Fault :=
  entries.filterMap fun
    | .malformed fault => some fault
    | _ => none

/-- Lines as findings by file. -/
def gather (lines : List Line) : FileFindings :=
  lines.foldl (fun findings line => findings.push line.path line.finding) .empty

/-- The findings of a report, and the faults of its malformed lines
(`ReportParser::parse_detailed`). -/
def parse (exclusions : Exclusions) (text : String) : FileFindings × List Fault :=
  let all := entries exclusions text
  (gather (keptLines all), faults all)

/-- The findings of a report (`ReportParser::parse`). -/
def findings (exclusions : Exclusions) (text : String) : FileFindings :=
  (parse exclusions text).1

end StyleMonitor.Report
