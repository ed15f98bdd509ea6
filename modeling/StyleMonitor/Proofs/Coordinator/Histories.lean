import StyleMonitor.Proofs.Coordinator.Timers

/-!
# Rows of events

A state comes about through a row of events. What is said of the past of a state is said of the
row: `run_induction` goes through it event by event. The lemmas on single steps say where a task
that is there after a step comes from, and when the time of a timer can have run out.
-/

namespace StyleMonitor.Coordinator

variable {setup : Setup} {shared : Shared} {start state middle next : State} {event : Event}
  {events before after : List Event} {actor : Option Nat} {id : Nat} {task : Task}

/-! ### Runs in parts -/

theorem run_append : run setup start (before ++ after) =
    (run setup start before).bind fun middle => run setup middle after :=
  List.foldlM_append

theorem run_snoc (ran : run setup start before = some middle)
    (happens : step setup middle event = some next) :
    run setup start (before ++ [event]) = some next := by
  rw [run_append, ran, Option.bind_some]
  exact Option.bind_eq_some_iff.mpr ⟨next, happens, rfl⟩

theorem of_run_snoc (ran : run setup start (before ++ [event]) = some next) :
    ∃ middle, run setup start before = some middle ∧ step setup middle event = some next := by
  rw [run_append] at ran
  obtain ⟨middle, ran, last⟩ := Option.bind_eq_some_iff.mp ran
  obtain ⟨final, happens, rest⟩ := Option.bind_eq_some_iff.mp last
  cases rest
  exact ⟨middle, ran, happens⟩

theorem of_run_append_cons (ran : run setup start (before ++ event :: after) = some next)
    (came : run setup start before = some state) (happens : step setup state event = some middle) :
    run setup middle after = some next := by
  rw [run_append, came, Option.bind_some, run, List.foldlM_cons, happens] at ran
  exact ran

theorem exists_of_run_append_cons (ran : run setup start (before ++ event :: after) = some next) :
    ∃ state middle, run setup start before = some state ∧ step setup state event = some middle ∧
      run setup middle after = some next := by
  rw [run_append] at ran
  obtain ⟨state, came, rest⟩ := Option.bind_eq_some_iff.mp ran
  obtain ⟨middle, happens, rest⟩ := Option.bind_eq_some_iff.mp rest
  exact ⟨state, middle, came, happens, rest⟩

/-- What holds before anything has happened and is kept by every step holds after every row of
events. -/
@[elab_as_elim]
theorem run_induction {P : List Event → State → Prop} (ran : run setup start events = some state)
    (base : P [] start)
    (kept : ∀ {before event middle next}, run setup start before = some middle →
      step setup middle event = some next → P before middle → P (before ++ [event]) next) :
    P events state := by
  induction events using List.reverseRecOn generalizing state with
  | nil =>
    cases ran
    exact base
  | append_singleton before event ih =>
    obtain ⟨middle, ran, happens⟩ := of_run_snoc ran
    exact kept ran happens (ih ran)

theorem Reachable.of_run (reached : Reachable setup start state)
    (ran : run setup state events = some next) : Reachable setup start next := by
  obtain ⟨before, came⟩ := reached
  refine ⟨before ++ events, ?_⟩
  rw [run_append, came, Option.bind_some, ran]

theorem Reachable.of_step (reached : Reachable setup start state)
    (happens : step setup state event = some next) : Reachable setup start next := by
  obtain ⟨before, came⟩ := reached
  exact ⟨before ++ [event], run_snoc came happens⟩

theorem Reachable.trans (first : Reachable setup start middle)
    (second : Reachable setup middle next) : Reachable setup start next := by
  obtain ⟨events, ran⟩ := second
  exact first.of_run ran

/-! ### Moments of a run -/

/-- Whether in a row of events there was such a moment: a state, and the event that came next. -/
def Occurs (setup : Setup) (start : State) (moment : State → Event → Prop) (events : List Event) :
    Prop :=
  ∃ before event after middle, events = before ++ event :: after ∧
    run setup start before = some middle ∧ moment middle event

/-- Whether all states of a row of events are such. -/
def Throughout (setup : Setup) (start : State) (good : State → Prop) (events : List Event) : Prop :=
  ∀ before after middle, events = before ++ after → run setup start before = some middle →
    good middle

section
variable {moment : State → Event → Prop} {good : State → Prop}

theorem not_occurs_nil : ¬ Occurs setup start moment [] := by
  rintro ⟨before, event, after, _, equal, _⟩
  cases before <;> cases equal

theorem occurs_snoc (ran : run setup start before = some middle) :
    Occurs setup start moment (before ++ [event]) ↔
      Occurs setup start moment before ∨ moment middle event := by
  constructor
  · rintro ⟨first, found, after, state, equal, came, holds⟩
    cases after using List.reverseRecOn with
    | nil =>
      obtain ⟨rfl, same⟩ := List.append_inj' equal rfl
      cases same
      cases ran.symm.trans came
      exact Or.inr holds
    | append_singleton after last =>
      rw [← List.cons_append, ← List.append_assoc] at equal
      obtain ⟨rfl, _⟩ := List.append_inj' equal rfl
      exact Or.inl ⟨first, found, after, state, rfl, came, holds⟩
  · rintro (⟨first, found, after, state, rfl, came, holds⟩ | holds)
    · exact ⟨first, found, after ++ [event], state, by simp, came, holds⟩
    · exact ⟨before, event, [], middle, rfl, ran, holds⟩

theorem Occurs.append (occurs : Occurs setup start moment before) (after : List Event) :
    Occurs setup start moment (before ++ after) := by
  obtain ⟨first, found, rest, state, rfl, came, holds⟩ := occurs
  exact ⟨first, found, rest ++ after, state, by simp, came, holds⟩

theorem Throughout.of_snoc (all : Throughout setup start good (before ++ [event]))
    (ran : run setup start before = some middle) :
    Throughout setup start good before ∧ good middle := by
  refine ⟨?_, all before [event] middle rfl ran⟩
  rintro first after state rfl came
  exact all first (after ++ [event]) state (List.append_assoc _ _ _) came

end

/-! ### Where a task comes from -/

/-- Whether a task stands where tasks of its kind begin. -/
def Task.newborn : Task → Bool
  | trigger _ _ .start | timer _ _ false | drive _ _ (.analyze .start) => true
  | toggle _ _ | shutdown .start => true
  | _ => false

theorem Task.newborn_of_calm (calm : task.role = .toggle ∨ task.role = .shutdown .start) :
    task.newborn = true := by
  cases task with
  | toggle => rfl
  | shutdown phase =>
    rcases calm with calm | calm
    · cases calm
    · cases calm
      rfl
  | trigger | timer | drive => rcases calm with calm | calm <;> cases calm

theorem Tasks.get?_of_cancelTimer {tasks : Tasks} {timer : Option Nat}
    (found : (tasks.cancelTimer timer).get? id = some task) : tasks.get? id = some task := by
  rcases tasks.cancelTimer_eq timer with same | ⟨gone, -, same⟩
  · rwa [same] at found
  · rw [same, Tasks.get?_remove] at found
    split at found
    · cases found
    · exact found

/-- Whether a task stands where those begin that other tasks start. -/
def Task.spawned : Task → Bool
  | timer _ _ false | drive _ _ (.analyze .start) => true
  | _ => false

theorem Task.newborn_of_spawned (spawned : task.spawned = true) : task.newborn = true := by
  cases task with
  | timer _ _ elapsed =>
    cases elapsed with
    | false => rfl
    | true => cases spawned
  | drive _ _ phase =>
    cases phase with
    | analyze analysis =>
      cases analysis with
      | start => rfl
      | _ => cases spawned
    | _ => cases spawned
  | _ => cases spawned

/-- A task that is there after a step of another one was there before, or the other one has started
it. -/
theorem Move.get?_other {own : Nat} (move : Move state (some own) next)
    (numbered : state.tasks.Numbered state.nextTask) (found : next.tasks.get? id = some task)
    (other : id ≠ own) : state.tasks.get? id = some task ∨ task.spawned = true := by
  cases move with
  | arriveIdle | arriveBusy =>
    rw [((numbered.remove _).cancelTimer _).get?_append] at found
    split at found
    · cases found
      exact Or.inr rfl
    · have found := Tasks.get?_of_cancelTimer found
      rw [Tasks.get?_remove, if_neg other] at found
      exact Or.inl found
  | cancel =>
    rw [Tasks.get?_update, if_neg other] at found
    exact Or.inl (Tasks.get?_of_cancelTimer found)
  | retire | refuse | ripen | stale | rest | abandon =>
    rw [Tasks.get?_remove, if_neg other] at found
    exact Or.inl found
  | onward | launch | land | deliver | again | giveUp | leave | close | drain | cancelled =>
    rw [Tasks.get?_update, if_neg other] at found
    exact Or.inl found

/-- A task that is there after a step that is not its own was there before, or has just begun. -/
theorem Move.get?_known (move : Move state actor next)
    (numbered : state.tasks.Numbered state.nextTask) (found : next.tasks.get? id = some task)
    (other : actor ≠ some id) : state.tasks.get? id = some task ∨ task.newborn = true := by
  cases actor with
  | none =>
    cases move with
    | share => exact Or.inl found
    | issue =>
      rw [numbered.get?_append] at found
      split at found
      · cases found
        exact Or.inr rfl
      · exact Or.inl found
    | enter task calm =>
      rw [numbered.get?_append] at found
      split at found
      · cases found
        exact Or.inr (Task.newborn_of_calm calm)
      · exact Or.inl found
  | some own =>
    have apart : id ≠ own := fun same => other (congrArg some same.symm)
    exact (move.get?_other numbered found apart).imp_right Task.newborn_of_spawned

/-- Whoever makes a step is there. -/
theorem exists_of_actor (happens : step setup state event = some next)
    (own : event.actor? = some id) : ∃ task, state.tasks.get? id = some task := by
  cases event with
  | trigger | setEnabled | shutDown | clearAll | clock => cases own
  | step =>
    cases own
    obtain ⟨task, found, _⟩ := Option.bind_eq_some_iff.mp happens
    exact ⟨task, found⟩
  | elapse | reply =>
    cases own
    simp only [step] at happens
    split at happens
    case h_1 found => exact ⟨_, found⟩
    case h_2 => cases happens
  | breakOff =>
    cases own
    simp only [step] at happens
    split at happens
    case h_1 => cases happens
    case h_2 found => exact ⟨_, found⟩
    case h_3 => cases happens

theorem Move.nextTask_le (move : Move state actor next) : state.nextTask ≤ next.nextTask := by
  cases move with
  | issue | enter | arriveIdle | arriveBusy => exact Nat.le_succ _
  | _ => exact Nat.le_refl _

/-! ### Timers -/

/-- A timer that is there after a step was there before, or a trigger has just started it. -/
theorem Move.timer_known (move : Move state actor next)
    (numbered : state.tasks.Numbered state.nextTask) {root : String} {pending : Nat}
    (role : next.tasks.role? id = some (.timer root pending)) :
    state.tasks.role? id = some (.timer root pending) ∨
      (pending = state.nextPending ∧ id = state.nextTask) := by
  cases move with
  | share => exact Or.inl role
  | arriveIdle =>
    by_cases new : id = state.nextTask
    · rw [new, role?_newcomer numbered] at role
      cases role
    · exact Or.inl (role?_of_arrive numbered new role)
  | arriveBusy =>
    by_cases new : id = state.nextTask
    · rw [new, role?_newcomer numbered] at role
      cases role
      exact Or.inr ⟨rfl, new⟩
    · exact Or.inl (role?_of_arrive numbered new role)
  | cancel =>
    rw [Tasks.role?_update] at role
    split at role
    · cases (Option.map_eq_some_iff.mp role).choose_spec.2
    · exact Or.inl (Tasks.role?_of_cancelTimer role)
  | _ => grind

/-- The time of a timer runs out with the event that says so, and not before. -/
theorem elapsed_of_step (happens : step setup state event = some next)
    (numbered : state.tasks.Numbered state.nextTask) {root : String} {pending : Nat}
    (found : next.tasks.get? id = some (.timer root pending true)) :
    state.tasks.get? id = some (.timer root pending true) ∨ event = .elapse id := by
  have move := move_of_step happens
  by_cases own : event.actor? = some id
  · obtain ⟨task, known⟩ := exists_of_actor happens own
    rcases move.timer_known numbered (Tasks.role?_of_get? found) with role | ⟨_, new⟩
    · rw [Tasks.role?_of_get? known] at role
      cases task with
      | timer =>
        cases role
        next elapsed =>
        cases elapsed with
        | true => exact Or.inl known
        | false =>
          right
          cases event with
          | elapse => exact congrArg _ (Option.some.inj own)
          | step | reply | breakOff =>
            cases own
            simp [step, State.task?, known, State.stepTask] at happens
          | _ => cases own
      | _ => cases role
    · rw [new, numbered.get?_next] at known
      cases known
  · refine (move.get?_known numbered found own).imp_right fun newborn => ?_
    cases newborn

end StyleMonitor.Coordinator
