import StyleMonitor.Path

/-!
Slots: for each root, whether an analysis of it is under way, and the analysis that is to follow.
Triggers that come while a root is analyzed gather in one pending analysis, which becomes ready
when no trigger came for a while.
-/

namespace StyleMonitor.Coordinator

/-- An analysis that is to follow the one under way (`PendingRun`). -/
structure Pending where
  /-- Its number, by which its timer knows it. -/
  id : Nat
  /-- The task of its timer, until the timer has elapsed. -/
  timer : Option Nat
  /-- The triggers that it is to serve, the oldest first. -/
  waiters : List Nat
  deriving DecidableEq, Repr

/-- Whether the timer of a pending analysis has elapsed (`PendingRun::is_ready`). -/
def Pending.ready (pending : Pending) : Bool :=
  pending.timer.isNone

/-- The state of a root (`TargetSlot`). -/
structure Slot where
  running : Bool := false
  pending : Option Pending := none
  deriving DecidableEq, Repr

/-- The slots of the roots that are not idle, or were not. -/
abbrev Slots := List (String × Slot)

namespace Slots

/-- The slot of a root. A root that is not listed is idle. -/
def get (slots : Slots) (root : String) : Slot :=
  ((slots.find? fun entry => Path.same entry.1 root).map (·.2)).getD {}

/-- Gives a root a slot. -/
def set (root : String) (slot : Slot) : Slots → Slots
  | [] => [(root, slot)]
  | (other, old) :: rest =>
    if Path.same other root then (other, slot) :: rest else (other, old) :: set root slot rest

/-- The triggers that wait in a slot. -/
def waitersOf (slot : Slot) : List Nat :=
  (slot.pending.map (·.waiters)).getD []

/-- The timer of a pending analysis, if it has not elapsed. -/
def timerOf (slot : Slot) : Option Nat :=
  slot.pending.bind fun pending => pending.timer

/-- What a trigger's arrival at a root asks for. -/
structure Arrival where
  /-- The timer that is no longer waited for. -/
  replaced : Option Nat
  /-- The triggers to serve, if an analysis starts now. Otherwise a timer starts. -/
  served : Option (List Nat)
  deriving DecidableEq, Repr

/-- A trigger arrives at a root (`Inner::schedule`). An idle root is analyzed at once; on a root
that is being analyzed the trigger waits. `id` and `timer` are the numbers of the pending analysis
and of its timer in that case. -/
def arrive (root : String) (waiter id timer : Nat) (slots : Slots) : Slots × Arrival :=
  let slot := slots.get root
  let waiters := waitersOf slot ++ [waiter]
  if slot.running then
    (slots.set root { slot with pending := some { id, timer := some timer, waiters } },
      ⟨timerOf slot, none⟩)
  else (slots.set root { running := true, pending := none }, ⟨timerOf slot, some waiters⟩)

/-- A timer has elapsed (`Inner::debounce`). The answer holds the triggers to serve if an analysis
starts now: only the timer of the pending analysis counts, and only on a root that is not being
analyzed. -/
def elapse (root : String) (id : Nat) (slots : Slots) : Slots × Option (List Nat) :=
  let slot := slots.get root
  match slot.pending with
  | none => (slots, none)
  | some pending =>
    if pending.id ≠ id then (slots, none)
    else if slot.running then
      (slots.set root { slot with pending := some { pending with timer := none } }, none)
    else (slots.set root { running := true, pending := none }, some pending.waiters)

/-- An analysis of a root has ended (`Inner::drive`). The answer holds the triggers to serve if
another one follows at once. -/
def finish (root : String) (shutDown : Bool) (slots : Slots) : Slots × Option (List Nat) :=
  let slot := slots.get root
  match slot.pending with
  | some pending =>
    if pending.ready ∧ ¬ shutDown then
      (slots.set root { slot with pending := none }, some pending.waiters)
    else (slots.set root { slot with running := false }, none)
  | none => (slots.set root { slot with running := false }, none)

/-- An analysis of a root has broken off (`UnwindReset::drop`). A pending analysis that is ready has
nobody left to start it and is given up; the answer holds its triggers. -/
def breakOff (root : String) (slots : Slots) : Slots × List Nat :=
  let slot := slots.get root
  match slot.pending with
  | some pending =>
    if pending.ready then (slots.set root {}, pending.waiters)
    else (slots.set root { slot with running := false }, [])
  | none => (slots.set root {}, [])

/-- Takes all pending analyses out. -/
def drain (slots : Slots) : Slots × List Pending :=
  (slots.map fun (root, slot) => (root, { slot with pending := none }),
    slots.filterMap fun (_, slot) => slot.pending)

end Slots

end StyleMonitor.Coordinator
