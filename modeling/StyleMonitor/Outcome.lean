import StyleMonitor.Decimal

/-!
Outcomes: what a trigger came to, and how that is told to the user and to the caller of the
program.
-/

namespace StyleMonitor

/-- Why a path may not start an analysis (`InvalidTargetError`). -/
inductive TargetFault where
  | bannedExtension (path extension : String)
  | outsideWorkspace (path : String)
  | noSources (root : String)
  deriving DecidableEq, Repr

/-- The text of a fault. -/
def TargetFault.message : TargetFault → String
  | bannedExtension path extension => path ++ " has banned extension ." ++ extension
  | outsideWorkspace path => path ++ " is outside every workspace root"
  | noSources root => "no C or C++ sources under " ++ root

/-- Why a trigger led to no analysis (`SkipReason`). -/
inductive Skip where
  | disabled
  | shutDown
  | invalidTarget (fault : TargetFault)
  deriving DecidableEq, Repr

/-- What a trigger came to (`RunOutcome`). -/
inductive Outcome where
  /-- The analysis finished and published so many findings. -/
  | completed (total : Nat)
  /-- The analysis failed; the user was told. -/
  | failed (message : String)
  | skipped (reason : Skip)
  /-- The analysis that was to serve the trigger never started or never finished. -/
  | cancelled
  deriving DecidableEq, Repr

namespace Outcome

/-- The number of findings (`RunOutcome::total`). -/
def total : Outcome → Nat
  | completed total => total
  | _ => 0

/-- Whether an analysis finished (`RunOutcome::is_completed`). -/
def isCompleted : Outcome → Bool
  | completed _ => true
  | _ => false

/-- The text of the status indicator (`RunOutcome::status_line`). -/
def statusLine : Outcome → String
  | completed 0 => "No Coding Style Errors"
  | completed 1 => "1 Coding Style Error"
  | completed total => Decimal.text total ++ " Coding Style Errors"
  | failed _ => "Coding Style Check Failed"
  | skipped (.invalidTarget _) => "No Coding Style Errors"
  | skipped .disabled => "Disabled"
  | skipped .shutDown => "Stopped"
  | cancelled => "Stopped"

/-- The exit code of a check (`exit_code`): 0 if nothing is to be said against the project, 1 if
there are findings, 2 if there is no result to rely on. -/
def exitCode : Outcome → Nat
  | completed 0 => 0
  | completed _ => 1
  | skipped .disabled => 0
  | _ => 2

end Outcome

end StyleMonitor
