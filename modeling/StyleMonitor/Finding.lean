import StyleMonitor.Rule
import StyleMonitor.Severity

/-!
Findings: what the checker has to say about one line of one file.
-/

namespace StyleMonitor

/-- One issue that the checker reports. -/
structure Finding where
  /-- The line, counted from 0. -/
  line : UInt32
  severity : Severity
  /-- The code of the rule. -/
  code : String
  /-- All that the report says about the issue, severity and code included. -/
  message : String
  deriving DecidableEq, Repr

namespace Finding

/-- What the finding's rule says (`Finding::description`). -/
def description (finding : Finding) : String :=
  Rule.description finding.code

/-- The text shown to the user (`Finding::diagnostic_text`): code and description. -/
def text (finding : Finding) : String :=
  finding.code ++ " - " ++ finding.description

end Finding

end StyleMonitor
