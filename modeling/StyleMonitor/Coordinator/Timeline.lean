import StyleMonitor.Coordinator.Machine
import StyleMonitor.Host

/-!
Timelines: the coordinator with a clock of its own. Tasks that can go on do so in the order in
which they became able to, each as far as it can, and time passes only when it is told to. Commands
are answered by a runtime. Runs of the container can take a while, and can wait at a gate for
permits.
-/

namespace StyleMonitor.Coordinator

/-- A gate at which runs wait, first come first served. -/
structure Gate where
  permits : Nat := 0
  /-- The tasks that wait. -/
  waiting : List Nat := []
  closed : Bool := false
  deriving DecidableEq, Repr

/-- What a task goes on from. -/
inductive Cue where
  | start
  /-- A span of time has passed. -/
  | slept
  /-- The gate let the task through. -/
  | permitted
  /-- The gate was closed. -/
  | refused
  deriving DecidableEq, Repr

/-- How the coordinator is exercised, with a runtime in a state of type `ρ`. -/
structure Stage (ρ : Type) where
  setup : Setup
  runtime : Runtime ρ
  /-- How the runtime takes note of a command that is issued. -/
  note : Command → ρ → ρ := fun _ state => state
  /-- How long triggers have to be quiet, in milliseconds. -/
  debounce : Nat := 500
  /-- How long a run of the container takes, in milliseconds. -/
  runDelay : Nat := 0
  /-- The update, counted from 1, at which publishing breaks off. -/
  breakAt : Option Nat := none

/-- A timeline: the coordinator, the runtime, and what is to come. -/
structure Timeline (ρ : Type) where
  state : State
  runtime : ρ
  /-- The time, in milliseconds. -/
  now : Nat := 0
  /-- The tasks that can go on, in order. -/
  ready : List (Nat × Cue) := []
  /-- The tasks that sleep, each until a time, in the order in which they went to sleep. -/
  sleeping : List (Nat × Nat) := []
  gate : Option Gate := none
  /-- The updates made so far. -/
  updates : Nat := 0

namespace Timeline

variable {ρ : Type}

/-- Lets an event happen, if it can. -/
def happen (stage : Stage ρ) (event : Event) (line : Timeline ρ) : Timeline ρ :=
  match step stage.setup line.state event with
  | some state => { line with state }
  | none => line

/-- Puts a task to sleep. -/
def sleep (task millis : Nat) (line : Timeline ρ) : Timeline ρ :=
  { line with sleeping := line.sleeping ++ [(line.now + millis, task)] }

/-- Has the runtime answer the command that a task waits for. -/
def reply (stage : Stage ρ) (task : Nat) (command : Command) (line : Timeline ρ) : Timeline ρ :=
  let (reply, runtime, volume) := stage.runtime command line.runtime line.state.shared.volume
  happen stage (.reply task reply volume) { line with runtime }

/-- Has the command that a task waits for fail. -/
def refuse (stage : Stage ρ) (task : Nat) (line : Timeline ρ) : Timeline ρ :=
  happen stage (.reply task (.error (.reported .other "run gate closed")) line.state.shared.volume)
    line

/-- A run arrives at the gate. The answer tells whether it goes on at once. -/
def arrive (stage : Stage ρ) (task : Nat) (command : Command) (line : Timeline ρ) :
    Bool × Timeline ρ :=
  match line.gate with
  | none => (true, reply stage task command line)
  | some gate =>
    if gate.closed then (true, refuse stage task line)
    else if 0 < gate.permits then
      (true, reply stage task command
        { line with gate := some { gate with permits := gate.permits - 1 } })
    else (false, { line with gate := some { gate with waiting := gate.waiting ++ [task] } })

/-- A task reaches a command. The answer tells whether it goes on at once. -/
def issue (stage : Stage ρ) (task : Nat) (command : Command) (line : Timeline ρ) :
    Bool × Timeline ρ :=
  let line := { line with runtime := stage.note command line.runtime }
  if command.purpose = .run then
    if stage.runDelay = 0 then arrive stage task command line
    else (false, sleep task stage.runDelay line)
  else (true, reply stage task command line)

/-- A task publishes these files one after the other, unless publishing breaks off. -/
def publishEach (stage : Stage ρ) (id : Nat) :
    List (String × List Finding) → Timeline ρ → Timeline ρ
  | [], line => line
  | _ :: rest, line =>
    let line := { line with updates := line.updates + 1 }
    if stage.breakAt = some line.updates then happen stage (.breakOff id) line
    else publishEach stage id rest (happen stage (.step id) line)

/-- A task makes a step, or it publishes all the files that it has. -/
def stepOrPublish (stage : Stage ρ) (id : Nat) (task : Task) (line : Timeline ρ) : Timeline ρ :=
  match task with
  | .drive _ _ (.analyze (.publish (file :: rest) _)) => publishEach stage id (file :: rest) line
  | _ => happen stage (.step id) line

/-- Lets a task go on as far as it can, in at most `fuel` steps. Publishing counts as one. -/
def goOn (stage : Stage ρ) (id : Nat) : Nat → Timeline ρ → Timeline ρ
  | 0, line => line
  | fuel + 1, line =>
    match line.state.task? id with
    | none => line
    | some (.timer _ _ false) =>
      if stage.debounce = 0 then goOn stage id fuel (happen stage (.elapse id) line)
      else sleep id stage.debounce line
    | some task =>
      match line.state.commandOf? stage.setup task with
      | some command =>
        let (onward, line) := issue stage id command line
        if onward then goOn stage id fuel line else line
      | none => goOn stage id fuel (stepOrPublish stage id task line)

/-- Brings a task past what it waited for. The answer tells whether it goes on. -/
def resume (stage : Stage ρ) (id : Nat) (cue : Cue) (line : Timeline ρ) : Bool × Timeline ρ :=
  match cue, line.state.task? id with
  | _, none => (false, line)
  | .start, _ => (true, line)
  | _, some (.timer _ _ _) => (true, happen stage (.elapse id) line)
  | cue, some task =>
    match cue, line.state.commandOf? stage.setup task with
    | .slept, some command => arrive stage id command line
    | .permitted, some command => (true, reply stage id command line)
    | .refused, some _ => (true, refuse stage id line)
    | _, _ => (true, line)

/-- The most steps that are made without time passing. -/
def stepLimit : Nat := 1000000

/-- The tasks that were started since a number was the next one. -/
def startedSince (first : Nat) (line : Timeline ρ) : List (Nat × Cue) :=
  (List.range' first (line.state.nextTask - first)).map fun id => (id, .start)

/-- Lets one task go on. The tasks that it starts come last. -/
def poll (stage : Stage ρ) (id : Nat) (cue : Cue) (line : Timeline ρ) : Timeline ρ :=
  let first := line.state.nextTask
  let (onward, line) := resume stage id cue line
  let line := if onward then goOn stage id stepLimit line else line
  { line with ready := line.ready ++ line.startedSince first }

/-- Lets tasks go on until none can, in at most `fuel` turns. -/
def settle (stage : Stage ρ) : Nat → Timeline ρ → Timeline ρ
  | 0, line => line
  | fuel + 1, line =>
    match line.ready with
    | [] => line
    | (id, cue) :: rest => settle stage fuel (poll stage id cue { line with ready := rest })

/-- Lets events happen, and then all that can happen without time passing. -/
def after (stage : Stage ρ) (events : List Event) (line : Timeline ρ) : Timeline ρ :=
  let first := line.state.nextTask
  let line := events.foldl (fun line event => happen stage event line) line
  settle stage stepLimit { line with ready := line.ready ++ line.startedSince first }

/-- The earliest time up to a limit at which a task wakes. -/
def nextWake? (limit : Nat) (line : Timeline ρ) : Option Nat :=
  ((line.sleeping.map (·.1)).filter (· ≤ limit)).min?

/-- Lets time pass up to a limit, waking each task at its time, in at most `fuel` turns. -/
def advanceTo (stage : Stage ρ) (limit : Nat) : Nat → Timeline ρ → Timeline ρ
  | 0, line => line
  | fuel + 1, line =>
    match line.nextWake? limit with
    | none => { line with now := limit }
    | some now =>
      let woken := (line.sleeping.filter (·.1 = now)).map fun entry => (entry.2, Cue.slept)
      let sleeping := line.sleeping.filter (·.1 ≠ now)
      let line := { line with now, sleeping, ready := line.ready ++ woken }
      advanceTo stage limit fuel (settle stage stepLimit line)

/-- Lets time pass. -/
def advance (stage : Stage ρ) (millis : Nat) (line : Timeline ρ) : Timeline ρ :=
  advanceTo stage (line.now + millis) stepLimit line

/-- Gives the gate permits. -/
def permit (stage : Stage ρ) (count : Nat) (line : Timeline ρ) : Timeline ρ :=
  match line.gate with
  | none => line
  | some gate =>
    let woken := (gate.waiting.take count).map fun id => (id, Cue.permitted)
    let left := gate.permits + (count - gate.waiting.length)
    let gate := { gate with permits := left, waiting := gate.waiting.drop count }
    settle stage stepLimit { line with gate := some gate, ready := line.ready ++ woken }

/-- Closes the gate. -/
def closeGate (stage : Stage ρ) (line : Timeline ρ) : Timeline ρ :=
  match line.gate with
  | none => line
  | some gate =>
    let woken := gate.waiting.map fun id => (id, Cue.refused)
    let gate := { gate with waiting := [], closed := true }
    settle stage stepLimit { line with gate := some gate, ready := line.ready ++ woken }

/-- Changes what analyses share, from outside. -/
def alter (change : Shared → Shared) (line : Timeline ρ) : Timeline ρ :=
  { line with state := { line.state with shared := change line.state.shared } }

/-- Forgets the last pull of the image. -/
def invalidateImage (stage : Stage ρ) (line : Timeline ρ) : Timeline ρ :=
  line.alter fun shared =>
    let forget := shared.pulls.forget stage.setup.analysis.runner.cacheKey
    let (pulls, shared) := Analysis.onFiles shared.pulls forget shared
    { shared with pulls }

end Timeline

end StyleMonitor.Coordinator
