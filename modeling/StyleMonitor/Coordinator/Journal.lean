import StyleMonitor.Outcome

/-!
The journal: what the coordinator notes of its work. An analysis is known by the entry of its
start. What triggers were answered is read off the journal.
-/

namespace StyleMonitor.Coordinator

/-- What is noted. -/
inductive Entry where
  /-- A trigger was turned away before it came to a root. -/
  | refused (waiter : Nat) (reason : Skip)
  /-- A trigger arrived at a root. -/
  | arrived (root : String) (waiter : Nat)
  /-- A task started an analysis of a root that serves these triggers. -/
  | started (root : String) (task : Nat) (waiters : List Nat)
  /-- The analysis of a root by a task ended. -/
  | ended (root : String) (task : Nat) (outcome : Outcome)
  /-- The triggers that an analysis served were given its outcome. -/
  | answered (root : String) (task : Nat) (waiters : List Nat) (outcome : Outcome)
  /-- An analysis of a root broke off, and these triggers that waited for the next one were let
  go. -/
  | brokenOff (root : String) (task : Nat) (dropped : List Nat)
  /-- All pending analyses were taken out of their slots. -/
  | drained
  /-- Triggers were let go. -/
  | letGo (waiters : List Nat)
  deriving DecidableEq, Repr

/-- The answers to triggers that go with an entry. -/
def Entry.answers : Entry → List (Nat × Outcome)
  | refused waiter reason => [(waiter, .skipped reason)]
  | answered _ _ waiters outcome => waiters.map fun waiter => (waiter, outcome)
  | brokenOff _ _ dropped => dropped.map fun waiter => (waiter, .cancelled)
  | letGo waiters => waiters.map fun waiter => (waiter, .cancelled)
  | arrived .. | started .. | ended .. | drained => []

end StyleMonitor.Coordinator
