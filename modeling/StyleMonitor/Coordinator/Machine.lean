import StyleMonitor.Coordinator.Analysis
import StyleMonitor.Coordinator.Journal
import StyleMonitor.Coordinator.Slot
import StyleMonitor.Workspace

/-!
The coordinator: tasks that share the slots of the roots, two flags and what analyses share. A
trigger that finds its root idle starts an analysis; one that comes during an analysis starts a
timer, and the analysis that follows serves all triggers that came by then. Every trigger is
answered with the outcome of an analysis that started after it.

The machine makes one step at a time: an access to a flag, a section under the lock on the slots,
a call on what is shown. Which task makes the next step is not fixed; an event says which.
-/

namespace StyleMonitor.Coordinator

/-- What does not change. -/
structure Setup where
  analysis : AnalysisSetup := {}
  workspace : Workspace
  /-- Whether a root holds sources, given the files. -/
  holdsSources : Disk → String → Bool

/-- Where a trigger stands (`AnalysisCoordinator::trigger`). -/
inductive TriggerPhase where
  | start
  /-- It is to be seen whether analyses are enabled. -/
  | asked
  /-- The root is to be found. -/
  | admitted
  /-- The trigger is to arrive at a root. -/
  | resolved (root : String)
  deriving DecidableEq, Repr

/-- Where a toggle stands (`AnalysisCoordinator::set_enabled`). -/
inductive TogglePhase where
  | acquire
  | swap
  | clear
  | release
  deriving DecidableEq, Repr

/-- Where a shutdown stands (`AnalysisCoordinator::shutdown`). -/
inductive ShutdownPhase where
  | start
  | drain
  | cancel (pending : List Pending)
  | dispose
  deriving DecidableEq, Repr

/-- Where the work on a root stands (`Inner::drive`). -/
inductive DrivePhase where
  | analyze (analysis : Analysis)
  /-- The triggers are to be answered. -/
  | answer (outcome : Outcome)
  /-- It is to be seen whether another analysis follows. -/
  | settle
  /-- An analysis has broken off. -/
  | broken
  /-- The triggers are to be let go after an analysis has broken off. -/
  | abandon

/-- A task. -/
inductive Task where
  | trigger (id : Nat) (path : String) (phase : TriggerPhase)
  /-- The timer of a pending analysis of a root; `elapsed` tells whether its time is up. -/
  | timer (root : String) (pending : Nat) (elapsed : Bool)
  /-- The analyses of a root, one after the other; the current one serves these triggers. -/
  | drive (root : String) (waiters : List Nat) (phase : DrivePhase)
  | toggle (value : Bool) (phase : TogglePhase)
  | shutdown (phase : ShutdownPhase)

/-- The tasks that are not over, by number. -/
abbrev Tasks := List (Nat × Task)

namespace Tasks

/-- The task of a number, if it is not over. -/
def get? (tasks : Tasks) (id : Nat) : Option Task :=
  tasks.lookup id

/-- Lets a task go on as another. -/
def update (id : Nat) (task : Task) (tasks : Tasks) : Tasks :=
  tasks.map fun entry => if entry.1 = id then (id, task) else entry

/-- Ends a task. -/
def remove (id : Nat) (tasks : Tasks) : Tasks :=
  tasks.filter fun entry => entry.1 ≠ id

/-- Aborts a timer, if there is one (`PendingRun::cancel_timer`). A timer whose time is up may be
past the point where it could be stopped, and goes on. -/
def cancelTimer (timer : Option Nat) (tasks : Tasks) : Tasks :=
  match timer with
  | none => tasks
  | some id =>
    match tasks.get? id with
    | some (.timer _ _ true) => tasks
    | _ => tasks.remove id

end Tasks

/-- The state of the coordinator (`AnalysisCoordinator`). -/
structure State where
  shared : Shared
  shutDown : Bool := false
  slots : Slots := []
  tasks : Tasks := []
  /-- The number of the next task. -/
  nextTask : Nat := 0
  /-- The number of the next trigger. -/
  nextTrigger : Nat := 0
  /-- The number of the next pending analysis. -/
  nextPending : Nat := 0
  /-- What was noted so far, in order. -/
  journal : List Entry := []

namespace State

/-- The answers to triggers, in the order in which they were given. -/
def answers (state : State) : List (Nat × Outcome) :=
  state.journal.flatMap Entry.answers

/-- The task of a number, if it is not over. -/
def task? (state : State) (id : Nat) : Option Task :=
  state.tasks.get? id

/-- Lets a task go on as another. -/
def become (id : Nat) (task : Task) (state : State) : State :=
  { state with tasks := state.tasks.update id task }

/-- Ends a task. -/
def endTask (id : Nat) (state : State) : State :=
  { state with tasks := state.tasks.remove id }

/-- Starts a task. -/
def spawn (task : Task) (state : State) : State :=
  { state with tasks := state.tasks ++ [(state.nextTask, task)], nextTask := state.nextTask + 1 }

/-- Aborts a timer, if there is one. -/
def cancelTimer (timer : Option Nat) (state : State) : State :=
  { state with tasks := state.tasks.cancelTimer timer }

/-- Makes a note. -/
def note (entry : Entry) (state : State) : State :=
  { state with journal := state.journal ++ [entry] }

/-- The work on a root, from the start of an analysis on. -/
def driveFrom (root : String) (waiters : List Nat) : Task :=
  .drive root waiters (.analyze .start)

/-- A step of a trigger. -/
def stepTrigger (setup : Setup) (task id : Nat) (path : String) (state : State) :
    TriggerPhase → State
  | .start =>
    if state.shutDown then (state.note (.refused id .shutDown)).endTask task
    else state.become task (.trigger id path .asked)
  | .asked =>
    if state.shared.enabled then state.become task (.trigger id path .admitted)
    else (state.note (.refused id .disabled)).endTask task
  | .admitted =>
    let disk := state.shared.volume.disk
    match setup.workspace.resolve disk.currentPath (setup.holdsSources disk) path with
    | .ok root => state.become task (.trigger id path (.resolved root))
    | .error fault => (state.note (.refused id (.invalidTarget fault))).endTask task
  | .resolved root =>
    let (slots, arrival) := state.slots.arrive root id state.nextPending state.nextTask
    let after :=
      (({ state with slots }.note (.arrived root id)).endTask task).cancelTimer arrival.replaced
    match arrival.served with
    | some waiters =>
      (after.note (.started root state.nextTask waiters)).spawn (driveFrom root waiters)
    | none =>
      { after with nextPending := state.nextPending + 1 }.spawn
        (.timer root state.nextPending false)

/-- A step of a timer whose time is up. -/
def stepTimer (task : Nat) (root : String) (pending : Nat) (state : State) : State :=
  match state.slots.elapse root pending with
  | (slots, some waiters) =>
    ({ state with slots }.note (.started root task waiters)).become task (driveFrom root waiters)
  | (slots, none) => { state with slots }.endTask task

/-- A step of the work on a root. -/
def stepDrive (setup : Setup) (task : Nat) (root : String) (waiters : List Nat) (state : State) :
    DrivePhase → Option State
  | .analyze (.ended outcome) =>
    some ((state.note (.ended root task outcome)).become task
      (.drive root waiters (.answer outcome)))
  | .analyze analysis =>
    (analysis.step setup.analysis root task state.shared).map fun (analysis, shared) =>
      { state with shared }.become task (.drive root waiters (.analyze analysis))
  | .answer outcome =>
    some ((state.note (.answered root task waiters outcome)).become task
      (.drive root [] .settle))
  | .settle =>
    match state.slots.finish root state.shutDown with
    | (slots, some waiters) =>
      some (({ state with slots }.note (.started root task waiters)).become task
        (driveFrom root waiters))
    | (slots, none) => some ({ state with slots }.endTask task)
  | .broken =>
    let (slots, dropped) := state.slots.breakOff root
    some (({ state with slots }.note (.brokenOff root task dropped)).become task
      (.drive root waiters .abandon))
  | .abandon => some ((state.note (.letGo waiters)).endTask task)

/-- A step of a toggle. Nothing happens if analyses are already as they are to be. -/
def stepToggle (task : Nat) (value : Bool) (state : State) : TogglePhase → Option State
  | .acquire =>
    match state.shared.publisher with
    | some _ => none
    | none =>
      some ({ state with shared := { state.shared with publisher := some task } }.become task
        (.toggle value .swap))
  | .swap =>
    let next := if value = false ∧ state.shared.enabled then TogglePhase.clear else .release
    some ({ state with shared := { state.shared with enabled := value } }.become task
      (.toggle value next))
  | .clear =>
    let shown := state.shared.shown.clearAll
    some ({ state with shared := { state.shared with shown } }.become task (.toggle value .release))
  | .release =>
    some ({ state with shared := { state.shared with publisher := none } }.endTask task)

/-- A step of a shutdown. Only the first one does anything. -/
def stepShutdown (task : Nat) (state : State) : ShutdownPhase → State
  | .start =>
    if state.shutDown then state.endTask task
    else { state with shutDown := true }.become task (.shutdown .drain)
  | .drain =>
    let (slots, pending) := state.slots.drain
    ({ state with slots }.note .drained).become task (.shutdown (.cancel pending))
  | .cancel [] => state.become task (.shutdown .dispose)
  | .cancel (pending :: rest) =>
    ((state.cancelTimer pending.timer).note (.letGo pending.waiters)).become task
      (.shutdown (.cancel rest))
  | .dispose =>
    let shown := state.shared.shown.dispose
    { state with shared := { state.shared with shown } }.endTask task

/-- A step of a task. There is none while it waits. -/
def stepTask (setup : Setup) (id : Nat) (state : State) : Task → Option State
  | .trigger trigger path phase => some (stepTrigger setup id trigger path state phase)
  | .timer _ _ false => none
  | .timer root pending true => some (stepTimer id root pending state)
  | .drive root waiters phase => stepDrive setup id root waiters state phase
  | .toggle value phase => stepToggle id value state phase
  | .shutdown phase => some (stepShutdown id state phase)

/-- The command that a task waits for. -/
def commandOf? (setup : Setup) (state : State) : Task → Option Command
  | .drive root _ (.analyze analysis) => analysis.command? setup.analysis root state.shared
  | _ => none

end State

/-- What can happen next. -/
inductive Event where
  /-- A trigger is issued. -/
  | trigger (path : String)
  /-- Analyses are to be enabled or disabled. -/
  | setEnabled (value : Bool)
  | shutDown
  /-- All that is shown is cleared at the user's wish. -/
  | clearAll
  /-- A task makes a step. -/
  | step (task : Nat)
  /-- The time of a timer is up. -/
  | elapse (task : Nat)
  /-- The command that a task waits for has ended, and has left the files like this. -/
  | reply (task : Nat) (reply : Reply) (volume : Volume)
  /-- An analysis breaks off. A lock that it holds is given back. -/
  | breakOff (task : Nat)
  /-- Time goes on. -/
  | clock (now : Instant)

/-- The state after an event, if it can happen. -/
def step (setup : Setup) (state : State) : Event → Option State
  | .trigger path =>
    some { state.spawn (.trigger state.nextTrigger path .start) with
      nextTrigger := state.nextTrigger + 1 }
  | .setEnabled value => some (state.spawn (.toggle value .acquire))
  | .shutDown => some (state.spawn (.shutdown .start))
  | .clearAll =>
    some { state with shared := { state.shared with shown := state.shared.shown.clearAll } }
  | .step task => (state.task? task).bind (state.stepTask setup task)
  | .elapse task =>
    match state.task? task with
    | some (.timer root pending false) => some (state.become task (.timer root pending true))
    | _ => none
  | .reply task reply volume =>
    match state.task? task with
    | some (.drive root waiters (.analyze analysis)) =>
      if (analysis.command? setup.analysis root state.shared).isSome then
        let analysis := analysis.afterReply setup.analysis root state.shared reply
        some ({ state with shared := { state.shared with volume } }.become task
          (.drive root waiters (.analyze analysis)))
      else none
    | _ => none
  | .breakOff task =>
    match state.task? task with
    | some (.drive _ _ (.analyze (.ended _))) => none
    | some (.drive root waiters (.analyze _)) =>
      some ({ state with shared := state.shared.releaseBy task }.become task
        (.drive root waiters .broken))
    | _ => none
  | .clock now =>
    if state.shared.clock.nanos ≤ now.nanos then
      some { state with shared := { state.shared with clock := now } }
    else none

/-- The state after a row of events, if they can happen. -/
def run (setup : Setup) (state : State) (events : List Event) : Option State :=
  events.foldlM (step setup) state

/-- Whether a state can come about from another one. -/
def Reachable (setup : Setup) (start state : State) : Prop :=
  ∃ events, run setup start events = some state

end StyleMonitor.Coordinator
