import Mathlib.Logic.Relation
import StyleMonitor.Proofs.Coordinator.Effects
import StyleMonitor.Proofs.Coordinator.Publishing

/-!
# Turns on a single thread

On a single thread a task goes on by itself until it waits: for its time, or for a command. Toggles
and shutdowns wait for nothing, so they are over before anything else happens. `Turn` says what can
happen without another task coming between, in terms of the machine's steps; so what is known of all
rows of events is known of all rows of turns. Between two turns every task is at ease: no trigger
has looked at the flags and not arrived yet, nobody toggles or shuts down, and nobody holds the lock
on publishing.
-/

namespace StyleMonitor.Coordinator

variable {setup : Setup} {shared : Shared} {state middle next : State} {event : Event}
  {events : List Event} {id task : Nat}

/-! ### Turns -/

/-- Whether a task is a timer whose time is not up. -/
def Task.sleeps : Task → Bool
  | timer _ _ false => true
  | _ => false

/-- Whether a task waits for its time or for a command, or is over. -/
def State.Parked (setup : Setup) (state : State) (id : Nat) : Prop :=
  ∀ task ∈ state.tasks.get? id, task.sleeps = true ∨ (state.commandOf? setup task).isSome = true

instance (setup : Setup) (state : State) (id : Nat) : Decidable (state.Parked setup id) :=
  inferInstanceAs (Decidable (∀ task ∈ state.tasks.get? id,
    task.sleeps = true ∨ (state.commandOf? setup task).isSome = true))

/-- A task goes on by itself. -/
def Goes (setup : Setup) (task : Nat) : State → State → Prop :=
  Relation.ReflTransGen fun state next => step setup state (.step task) = some next

/-- Whether an event comes from outside and is over at once. -/
def Event.Sudden : Event → Prop
  | trigger _ | clearAll | elapse _ | reply _ _ _ | clock _ => True
  | setEnabled _ | shutDown | step _ | breakOff _ => False

/-- Whether an event is a call that is over when it returns. -/
def Event.Calls : Event → Prop
  | setEnabled _ | shutDown => True
  | trigger _ | clearAll | elapse _ | reply _ _ _ | clock _ | step _ | breakOff _ => False

/-- What can happen on a single thread without another task coming between. -/
inductive Turn (setup : Setup) (state : State) : State → Prop where
  | sudden {next : State} {event : Event} (sudden : event.Sudden)
    (happens : step setup state event = some next) : Turn setup state next
  /-- A task goes on until it waits or is over. -/
  | poll {task : Nat} {next : State} (goes : Goes setup task state next)
    (parked : next.Parked setup task) : Turn setup state next
  /-- An analysis goes on and breaks off. -/
  | collapse {task : Nat} {middle broken next : State} (goes : Goes setup task state middle)
    (breaks : step setup middle (.breakOff task) = some broken)
    (unwinds : Goes setup task broken next) (parked : next.Parked setup task) :
    Turn setup state next
  /-- Someone toggles or shuts down. -/
  | call {called next : State} {event : Event} (calls : event.Calls)
    (happens : step setup state event = some called) (goes : Goes setup state.nextTask called next)
    (parked : next.Parked setup state.nextTask) : Turn setup state next

/-- Whether a state can come about from another one on a single thread. -/
def Threaded (setup : Setup) : State → State → Prop :=
  Relation.ReflTransGen (Turn setup)

/-! ### Turns are rows of events -/

theorem Goes.reachable (goes : Goes setup task state next) : Reachable setup state next := by
  induction goes with
  | refl => exact ⟨[], rfl⟩
  | tail _ happens ih => exact ih.of_step happens

theorem Turn.reachable (turn : Turn setup state next) : Reachable setup state next := by
  cases turn with
  | sudden _ happens => exact Reachable.of_step ⟨[], rfl⟩ happens
  | poll goes => exact goes.reachable
  | collapse goes breaks unwinds => exact (goes.reachable.of_step breaks).trans unwinds.reachable
  | call _ happens goes => exact (Reachable.of_step ⟨[], rfl⟩ happens).trans goes.reachable

theorem Threaded.reachable (threaded : Threaded setup state next) : Reachable setup state next := by
  induction threaded with
  | refl => exact ⟨[], rfl⟩
  | tail _ turn ih => exact ih.trans turn.reachable

theorem Goes.of_replicate {steps : Nat}
    (ran : run setup state (List.replicate steps (.step task)) = some next) :
    Goes setup task state next := by
  induction steps generalizing state with
  | zero =>
    cases ran
    exact .refl
  | succ steps ih =>
    rw [List.replicate_succ, run, List.foldlM_cons] at ran
    obtain ⟨middle, happens, rest⟩ := Option.bind_eq_some_iff.mp ran
    exact .head happens (ih rest)

theorem Goes.exists_replicate (goes : Goes setup task state next) :
    ∃ steps, run setup state (List.replicate steps (.step task)) = some next := by
  induction goes with
  | refl => exact ⟨0, rfl⟩
  | tail _ happens ih =>
    obtain ⟨steps, ran⟩ := ih
    refine ⟨steps + 1, ?_⟩
    rw [List.replicate_succ']
    exact run_snoc ran happens

/-- A row of steps of one task can be seen to be a turn. -/
theorem Threaded.poll {start : State} {steps : Nat} (threaded : Threaded setup start state)
    (came : run setup start events = some state)
    (seen : (run setup start (events ++ List.replicate steps (.step task))).map
      (fun next => decide (next.Parked setup task)) = some true) : ∃ next,
    run setup start (events ++ List.replicate steps (.step task)) = some next ∧
      Threaded setup start next := by
  obtain ⟨next, ran, parked⟩ := Option.map_eq_some_iff.mp seen
  refine ⟨next, ran, ?_⟩
  rw [run_append, came, Option.bind_some] at ran
  exact threaded.tail (.poll (.of_replicate ran) (of_decide_eq_true parked))

/-- A task that goes on by itself until it makes no more steps ends in one state only. -/
theorem Goes.unique (first : Goes setup task state middle) (second : Goes setup task state next)
    (stuck : step setup middle (.step task) = none) (halted : step setup next (.step task) = none) :
    middle = next := by
  have functional : Relator.RightUnique
      fun state next => step setup state (.step task) = some next :=
    fun _ _ _ left right => Option.some.inj (left.symm.trans right)
  rcases Relation.ReflTransGen.total_of_right_unique functional first second with onward | onward
  · rcases onward.cases_head with same | ⟨_, happens, _⟩
    · exact same
    · cases stuck.symm.trans happens
  · rcases onward.cases_head with same | ⟨_, happens, _⟩
    · exact same.symm
    · cases halted.symm.trans happens

/-- A task that is parked makes no step. -/
theorem State.Parked.stuck (parked : state.Parked setup task) :
    step setup state (.step task) = none := by
  cases found : state.tasks.get? task with
  | none => rw [step, State.task?, found, Option.bind_none]
  | some old =>
    rw [step, State.task?, found, Option.bind_some]
    rcases parked old found with sleeps | waits
    · cases old with
      | timer _ _ elapsed =>
        cases elapsed with
        | false => rfl
        | true => cases sleeps
      | _ => cases sleeps
    · cases old with
      | drive root waiters phase =>
        cases phase with
        | analyze analysis =>
          cases analysis with
          | container stage =>
            have waits : (Analysis.command? setup.analysis root state.shared
              (.container stage)).isSome := waits
            simp only [State.stepTask, State.stepDrive, Analysis.step, waits, if_true,
              Option.map_none]
          | _ => cases waits
        | _ => cases waits
      | _ => cases waits

/-! ### Between two turns -/

/-- Whether a task stands where tasks can stand between two turns. -/
def Task.AtEase : Task → Prop
  | trigger _ _ phase => phase = .start
  | timer _ _ _ => True
  | drive _ _ phase => ∃ analysis, phase = .analyze analysis ∧ holdOf analysis = none
  | toggle _ _ | shutdown _ => False

/-- Whether all tasks, but for one perhaps, are at ease. -/
def State.CalmBut (state : State) (own : Option Nat) : Prop :=
  ∀ id task, own ≠ some id → state.tasks.get? id = some task → task.AtEase

theorem Task.atEase_of_spawned {task : Task} (spawned : task.spawned = true) : task.AtEase := by
  cases task with
  | timer => trivial
  | drive root waiters phase =>
    cases phase with
    | analyze analysis =>
      cases analysis with
      | start => exact ⟨_, rfl, rfl⟩
      | _ => cases spawned
    | _ => cases spawned
  | _ => cases spawned

/-- A task leaves the others at ease, and starts no other tasks than those at ease. -/
theorem State.CalmBut.step (calm : state.CalmBut (some task))
    (reached : Reachable setup { shared } state) (happens : step setup state event = some next)
    (own : event.actor? = some task) : next.CalmBut (some task) := by
  intro id found other member
  have move := move_of_step happens
  rw [own] at move
  have apart : id ≠ task := fun same => other (congrArg some same.symm)
  rcases move.get?_other reached.numbered member apart with known | spawned
  · exact calm id found other known
  · exact Task.atEase_of_spawned spawned

theorem State.CalmBut.goes (calm : state.CalmBut (some task))
    (reached : Reachable setup { shared } state) (goes : Goes setup task state next) :
    next.CalmBut (some task) := by
  induction goes with
  | refl => exact calm
  | tail before happens ih =>
    have came : Goes setup task state _ := before
    exact ih.step (reached.trans came.reachable) happens rfl

/-- A task that is parked is at ease. -/
theorem State.CalmBut.of_parked (calm : state.CalmBut (some task))
    (parked : state.Parked setup task) : state.CalmBut none := by
  intro id found _ member
  by_cases own : task = id
  · rw [← own] at member
    rcases parked found member with sleeps | waits
    · cases found with
      | timer => trivial
      | _ => cases sleeps
    · cases found with
      | drive root waiters phase =>
        cases phase with
        | analyze analysis =>
          cases analysis with
          | container stage => exact ⟨_, rfl, rfl⟩
          | _ => cases waits
        | _ => cases waits
      | _ => cases waits
  · exact calm id found (fun same => own (Option.some.inj same)) member

theorem State.CalmBut.ease (calm : state.CalmBut none) {found : Task}
    (member : state.tasks.get? id = some found) : found.AtEase :=
  calm id found (Option.some_ne_none id).symm member

theorem State.CalmBut.but (calm : state.CalmBut none) (task : Nat) : state.CalmBut (some task) :=
  fun _ _ _ member => calm.ease member

/-- Who comes last is the only one that may not be at ease. -/
theorem State.CalmBut.enter (calm : state.CalmBut none)
    (numbered : state.tasks.Numbered state.nextTask) {entering : Task}
    (tasks : next.tasks = state.tasks ++ [(state.nextTask, entering)]) :
    next.CalmBut (some state.nextTask) := by
  intro id found other member
  rw [tasks, numbered.get?_append, if_neg fun same => other (congrArg some same.symm)] at member
  exact calm.ease member

/-- What comes from outside and is over at once leaves all tasks at ease. -/
theorem State.CalmBut.sudden (calm : state.CalmBut none)
    (reached : Reachable setup { shared } state) (sudden : event.Sudden)
    (happens : Coordinator.step setup state event = some next) : next.CalmBut none := by
  cases event with
  | setEnabled | shutDown | step | breakOff => exact sudden.elim
  | trigger path =>
    cases happens
    intro id found _ member
    by_cases new : id = state.nextTask
    · rw [new] at member
      cases ((reached.numbered.get?_append _ _).symm.trans member).symm.trans (if_pos rfl)
      rfl
    · exact calm.enter reached.numbered rfl id found (fun same => new (Option.some.inj same).symm)
        member
  | clearAll =>
    cases happens
    exact calm
  | clock now =>
    simp only [Coordinator.step] at happens
    split at happens
    · cases happens
      exact calm
    · cases happens
  | elapse task =>
    have others := (calm.but task).step reached happens rfl
    simp only [Coordinator.step] at happens
    split at happens
    case h_2 => cases happens
    case h_1 root pending known =>
      cases happens
      intro id found _ member
      by_cases own : task = id
      · rw [← own, State.get?_become known] at member
        cases member
        trivial
      · exact others id found (fun same => own (Option.some.inj same)) member
  | reply task reply volume =>
    have others := (calm.but task).step reached happens rfl
    obtain ⟨old, known⟩ := exists_of_actor happens rfl
    intro id found _ member
    by_cases own : task = id
    · rw [← own] at member
      cases old with
      | drive root waiters phase =>
        cases stride_of_step happens known rfl with
        | reply _ _ waits =>
          cases (State.get?_become known _).symm.trans member
          obtain ⟨stage, rfl⟩ := Analysis.exists_stage_of_command waits
          exact ⟨_, rfl, holdOf_ofStage _⟩
      | trigger | timer | toggle | shutdown =>
        simp [Coordinator.step, State.task?, known] at happens
    · exact others id found (fun same => own (Option.some.inj same)) member

/-- Between two turns all tasks are at ease. -/
theorem Turn.calm (turn : Turn setup state next) (reached : Reachable setup { shared } state)
    (calm : state.CalmBut none) : next.CalmBut none := by
  cases turn with
  | sudden sudden happens => exact calm.sudden reached sudden happens
  | @poll task _ goes parked => exact ((calm.but task).goes reached goes).of_parked parked
  | @collapse task middle _ _ goes breaks unwinds parked =>
    have there := reached.trans goes.reachable
    have broken := ((calm.but task).goes reached goes).step there breaks rfl
    exact (broken.goes (there.of_step breaks) unwinds).of_parked parked
  | @call called _ event calls happens goes parked =>
    have entered : called.CalmBut (some state.nextTask) := by
      cases event with
      | setEnabled | shutDown =>
        cases happens
        exact calm.enter reached.numbered rfl
      | trigger | clearAll | step | elapse | reply | breakOff | clock => exact calls.elim
    exact (entered.goes (reached.of_step happens) goes).of_parked parked

theorem Threaded.calm (threaded : Threaded setup { shared } state) : state.CalmBut none := by
  induction threaded with
  | refl => exact nofun
  | tail before turn ih => exact turn.calm (Threaded.reachable before) ih

/-- Nobody holds the lock on publishing between two turns. -/
theorem Threaded.free (threaded : Threaded setup { shared } state)
    (free : shared.publisher = none) : state.shared.publisher = none := by
  by_contra held
  obtain ⟨holder, held⟩ := Option.ne_none_iff_exists'.mp held
  have holds := (threaded.reachable.owned free holder).mp held
  obtain ⟨hold, holds⟩ := Option.ne_none_iff_exists'.mp holds
  obtain ⟨found, member, holds⟩ := Option.bind_eq_some_iff.mp holds
  have ease := threaded.calm.ease member
  cases found with
  | drive root waiters phase =>
    obtain ⟨analysis, rfl, none⟩ := ease
    cases none.symm.trans holds
  | trigger | timer => cases holds
  | toggle | shutdown => exact ease.elim

end StyleMonitor.Coordinator
