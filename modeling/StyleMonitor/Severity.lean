/-!
Severities of findings, and the levels at which findings are shown. A severity the checker uses
and this library does not know keeps its text; only showing it needs a choice, and then it is a
hint.
-/

namespace StyleMonitor

/-- How a finding is shown to the user (`DiagnosticLevel`). -/
inductive Level where
  | error
  | warning
  | information
  | hint
  deriving DecidableEq, Repr

namespace Level

/-- Levels are numbered from the gravest. -/
def rank : Level → Nat
  | error => 1
  | warning => 2
  | information => 3
  | hint => 4

/-- The word printed for a level (`DiagnosticLevel::label`). -/
def label : Level → String
  | error => "error"
  | warning => "warning"
  | information => "info"
  | hint => "hint"

/-- Every level, in the order of rank. -/
def all : List Level := [error, warning, information, hint]

theorem mem_all (level : Level) : level ∈ all := by
  cases level <;> decide

end Level

/-- How grave the checker holds a finding to be. -/
inductive Severity where
  | major
  | minor
  | info
  | unrecognized (text : String)
  deriving DecidableEq, Repr

namespace Severity

/-- The severity written as this text (`Severity::parse`). The text is matched exactly. -/
def ofText (text : String) : Severity :=
  if text = "MAJOR" then major
  else if text = "MINOR" then minor
  else if text = "INFO" then info
  else unrecognized text

/-- The text of a severity (`Severity::as_str`). -/
def text : Severity → String
  | major => "MAJOR"
  | minor => "MINOR"
  | info => "INFO"
  | unrecognized text => text

/-- Whether this library knows the severity (`Severity::is_recognized`). -/
def recognized : Severity → Bool
  | unrecognized _ => false
  | _ => true

/-- The level at which findings of a severity are shown (`Severity::diagnostic_level`). -/
def level : Severity → Level
  | major => .warning
  | minor => .warning
  | info => .information
  | unrecognized _ => .hint

/-- Reading a severity loses nothing of its text. -/
@[simp] theorem text_ofText (raw : String) : (ofText raw).text = raw := by
  unfold ofText
  split
  · next h => exact h.symm
  split
  · next h => exact h.symm
  split
  · next h => exact h.symm
  rfl

end Severity

end StyleMonitor
