import StyleMonitor.Proofs.Analysis.Run
import StyleMonitor.Proofs.Coordinator.Histories
import StyleMonitor.Proofs.Coordinator.SingleFlight

/-!
# Publishing and toggles

What is shown grows under the lock on publishing only, and only while analyses are enabled. A
toggle that disables them takes the same lock and clears what is shown before it gives the lock
back. So while analyses are disabled and nobody holds the lock, nothing is shown.
-/

namespace StyleMonitor.Coordinator

/-- What a task is about while it holds the lock on publishing. -/
inductive Hold where
  /-- It changes nothing that is shown. -/
  | look
  | publish
  /-- It is to clear what is shown, after it disabled analyses. -/
  | wipe
  deriving DecidableEq, Repr

/-- What an analysis is about, if it stands between taking the lock and giving it back. -/
def holdOf : Analysis → Option Hold
  | .check _ | .release _ => some .look
  | .publish _ _ => some .publish
  | _ => none

/-- What a task is about, if it stands between taking the lock and giving it back. -/
def Task.hold? : Task → Option Hold
  | drive _ _ (.analyze analysis) => holdOf analysis
  | toggle _ .swap | toggle _ .release => some .look
  | toggle _ .clear => some .wipe
  | _ => none

variable {setup : Setup} {shared : Shared} {state next : State} {event : Event}
  {actor : Option Nat} {id task : Nat}

/-- What the task of a number is about, if it is not over and holds the lock. -/
def State.hold? (state : State) (id : Nat) : Option Hold :=
  (state.tasks.get? id).bind Task.hold?

theorem State.hold?_of_get? {task : Task} (found : state.tasks.get? id = some task) :
    state.hold? id = task.hold? := by
  rw [State.hold?, found, Option.bind_some]

theorem Task.untimed_of_hold {task : Task} {hold : Hold} (holds : task.hold? = some hold)
    (spelling : String) (pending : Nat) : task.role ≠ .timer spelling pending := by
  cases task with
  | timer => cases holds
  | _ => nofun

/-! ### What a step does to tasks other than its own -/

/-- A task that another one has just started does not hold the lock. -/
theorem Task.hold?_of_spawned {task : Task} (spawned : task.spawned = true) :
    task.hold? = none := by
  cases task with
  | timer => rfl
  | drive _ _ phase =>
    cases phase with
    | analyze analysis =>
      cases analysis with
      | start => rfl
      | _ => cases spawned
    | _ => cases spawned
  | _ => cases spawned

/-- A step changes the hold of no task but its own. -/
theorem Move.hold?_other (move : Move state (some task) next) (timed : Timed state)
    (numbered : state.tasks.Numbered state.nextTask) (other : id ≠ task) :
    next.hold? id = state.hold? id := by
  cases holds : state.hold? id with
  | some hold =>
    obtain ⟨old, found, held⟩ := Option.bind_eq_some_iff.mp holds
    have kept := timed.get?_kept numbered found (Task.untimed_of_hold held) move
      (fun same => other (Option.some.inj same).symm)
    rw [State.hold?_of_get? kept, held]
  | none =>
    cases found : next.tasks.get? id with
    | none => rw [State.hold?, found, Option.bind_none]
    | some new =>
      rw [State.hold?_of_get? found]
      rcases move.get?_other numbered found other with known | spawned
      · rw [← State.hold?_of_get? known, holds]
      · exact Task.hold?_of_spawned spawned

/-! ### What a step does to the lock and to what is shown -/

/-- What a step changes: the hold of its task, and what is shared. -/
inductive Shift (task : Nat) : Option Hold → Shared → Option Hold → Shared → Prop where
  /-- The lock is not touched, and nothing more is shown than before. -/
  | aside {hold : Option Hold} {shared after : Shared} (enabled : after.enabled = shared.enabled)
    (publisher : after.publisher = shared.publisher)
    (shown : after.shown.files.Sublist shared.shown.files) : Shift task hold shared hold after
  | take {shared : Shared} (free : shared.publisher = none) :
    Shift task none shared (some .look) { shared with publisher := some task }
  /-- Publishing begins once analyses were seen to be enabled. -/
  | begin {shared : Shared} (on : shared.enabled = true) :
    Shift task (some .look) shared (some .publish) shared
  | exhibit {shared : Shared} (shown : Diagnostics) :
    Shift task (some .publish) shared (some .publish) { shared with shown }
  | finish {shared : Shared} : Shift task (some .publish) shared (some .look) shared
  /-- Analyses are enabled, or they are already as they are to be. -/
  | allow {shared : Shared} {value : Bool} (calm : value = true ∨ shared.enabled = false) :
    Shift task (some .look) shared (some .look) { shared with enabled := value }
  | forbid {shared : Shared} :
    Shift task (some .look) shared (some .wipe) { shared with enabled := false }
  | wipe {shared : Shared} :
    Shift task (some .wipe) shared (some .look) { shared with shown := shared.shown.clearAll }
  | give {hold : Hold} {shared : Shared} (kept : hold ≠ .wipe) :
    Shift task (some hold) shared none { shared with publisher := none }

theorem Shift.refl {hold : Option Hold} : Shift task hold shared hold shared :=
  .aside rfl rfl (List.Sublist.refl _)

theorem holdOf_ofStage (stage : Container.Stage) : holdOf (.ofStage stage) = none := by
  unfold Analysis.ofStage
  split <;> rfl

/-- An analysis that makes a step with the lock on publishing, or to take it. -/
theorem shift_of_turn {analysis later : Analysis} {root : String} {after : Shared}
    (turn : analysis.Turn root task shared later after)
    (free : ∀ findings, analysis = .acquire findings → shared.publisher = none) :
    Shift task (holdOf analysis) shared (holdOf later) after := by
  cases turn with
  | clear => exact .aside rfl rfl List.filter_sublist
  | advance =>
    rw [holdOf_ofStage]
    exact .aside rfl rfl (List.Sublist.refl _)
  | acquire => exact .take (free _ rfl)
  | publish on => exact .begin on
  | drop => exact .refl
  | exhibit => exact .exhibit _
  | complete => exact .finish
  | release => exact .give nofun
  | skip | enter | read | unreadable | notify | hush | fail =>
    exact .aside rfl rfl (List.Sublist.refl _)

/-! ### One kind of task after the other -/

/-- A task goes on as another. Up to then no task has changed. -/
theorem Shift.of_become {middle : State} {old new : Task}
    (found : state.tasks.get? task = some old) (same : middle.tasks = state.tasks)
    (shift : Shift task old.hold? state.shared new.hold? middle.shared) :
    Shift task (state.hold? task) state.shared ((middle.become task new).hold? task)
      (middle.become task new).shared := by
  have later : (middle.become task new).hold? task = new.hold? := by
    rw [State.hold?, State.become, Tasks.get?_update, if_pos rfl, same, found, Option.map_some,
      Option.bind_some]
  rw [State.hold?_of_get? found, later]
  exact shift

/-- A task ends. -/
theorem Shift.of_endTask {middle : State} {old : Task}
    (found : state.tasks.get? task = some old)
    (shift : Shift task old.hold? state.shared none middle.shared) :
    Shift task (state.hold? task) state.shared ((middle.endTask task).hold? task)
      (middle.endTask task).shared := by
  have later : (middle.endTask task).hold? task = none := by
    rw [State.hold?, State.endTask, Tasks.get?_remove, if_pos rfl, Option.bind_none]
  rw [State.hold?_of_get? found, later]
  exact shift

/-- A task ends, a timer is cancelled and another task starts. -/
theorem Shift.of_spawn {last : State} {old new : Task} {timer : Option Nat}
    (numbered : state.tasks.Numbered state.nextTask) (found : state.tasks.get? task = some old)
    (same : last.tasks = (state.tasks.remove task).cancelTimer timer ++ [(state.nextTask, new)])
    (shift : Shift task old.hold? state.shared none last.shared) :
    Shift task (state.hold? task) state.shared (last.hold? task) last.shared := by
  have gone : (state.tasks.remove task).get? task = none := by
    rw [Tasks.get?_remove, if_pos rfl]
  have later : last.hold? task = none := by
    rw [State.hold?, same, ((numbered.remove task).cancelTimer timer).get?_append,
      if_neg (Nat.ne_of_lt (numbered.get?_lt found))]
    rcases (state.tasks.remove task).cancelTimer_eq timer with kept | ⟨other, -, kept⟩
    · rw [kept, gone, Option.bind_none]
    · rw [kept, Tasks.get?_remove, gone, ite_self, Option.bind_none]
  rw [State.hold?_of_get? found, later]
  exact shift

namespace State

theorem shift_of_stepTrigger {trigger : Nat} {path : String} {phase : TriggerPhase}
    (numbered : state.tasks.Numbered state.nextTask)
    (found : state.tasks.get? task = some (.trigger trigger path phase)) :
    Shift task (state.hold? task) state.shared
      ((stepTrigger setup task trigger path state phase).hold? task)
      (stepTrigger setup task trigger path state phase).shared := by
  cases phase with
  | start =>
    simp only [stepTrigger]
    split
    · exact .of_endTask found .refl
    · exact .of_become found rfl .refl
  | asked =>
    simp only [stepTrigger]
    split
    · exact .of_become found rfl .refl
    · exact .of_endTask found .refl
  | admitted =>
    simp only [stepTrigger]
    split
    · exact .of_become found rfl .refl
    · exact .of_endTask found .refl
  | resolved root =>
    simp only [stepTrigger, Slots.arrive]
    cases (state.slots.get root).running with
    | false => exact .of_spawn numbered found rfl .refl
    | true => exact .of_spawn numbered found rfl .refl

theorem shift_of_stepTimer {root : String} {pending : Nat}
    (found : state.tasks.get? task = some (.timer root pending true)) :
    Shift task (state.hold? task) state.shared ((stepTimer task root pending state).hold? task)
      (stepTimer task root pending state).shared := by
  unfold stepTimer
  split
  · exact .of_become found rfl .refl
  · exact .of_endTask found .refl

theorem shift_of_stepDrive {root : String} {waiters : List Nat} {phase : DrivePhase}
    (found : state.tasks.get? task = some (.drive root waiters phase))
    (h : stepDrive setup task root waiters state phase = some next) :
    Shift task (state.hold? task) state.shared (next.hold? task) next.shared := by
  cases phase with
  | analyze analysis =>
    cases analysis with
    | ended outcome =>
      cases h
      exact .of_become found rfl .refl
    | acquire findings =>
      simp only [stepDrive, Analysis.step] at h
      split at h
      · next free =>
        cases h
        exact .of_become found rfl (.take free)
      · cases h
    | _ =>
      simp only [stepDrive] at h
      obtain ⟨⟨later, after⟩, acts, rfl⟩ := Option.map_eq_some_iff.mp h
      refine .of_become found rfl (shift_of_turn (Analysis.turn_of_step acts) ?_)
      rintro _ ⟨⟩
  | answer outcome =>
    cases h
    exact .of_become found rfl .refl
  | settle =>
    simp only [stepDrive] at h
    split at h
    · cases h
      exact .of_become found rfl .refl
    · cases h
      exact .of_endTask found .refl
  | broken =>
    cases h
    exact .of_become found rfl .refl
  | abandon =>
    cases h
    exact .of_endTask found .refl

theorem shift_of_stepToggle {value : Bool} {phase : TogglePhase}
    (found : state.tasks.get? task = some (.toggle value phase))
    (h : stepToggle task value state phase = some next) :
    Shift task (state.hold? task) state.shared (next.hold? task) next.shared := by
  cases phase with
  | acquire =>
    simp only [stepToggle] at h
    split at h
    · cases h
    · next free =>
      cases h
      exact .of_become found rfl (.take free)
  | swap =>
    cases h
    refine .of_become found rfl ?_
    by_cases turned : value = false ∧ state.shared.enabled = true
    · obtain ⟨rfl, on⟩ := turned
      rw [if_pos ⟨rfl, on⟩]
      exact .forbid
    · rw [if_neg turned]
      refine .allow ?_
      cases value with
      | true => exact Or.inl rfl
      | false => exact Or.inr (Bool.eq_false_iff.mpr fun on => turned ⟨rfl, on⟩)
  | clear =>
    cases h
    exact .of_become found rfl .wipe
  | release =>
    cases h
    exact .of_endTask found (.give (by decide))

theorem shift_of_stepShutdown {phase : ShutdownPhase}
    (timed : Timed state) (found : state.tasks.get? task = some (.shutdown phase)) :
    Shift task (state.hold? task) state.shared ((stepShutdown task state phase).hold? task)
      (stepShutdown task state phase).shared := by
  cases phase with
  | start =>
    simp only [stepShutdown]
    split
    · exact .of_endTask found .refl
    · exact .of_become found rfl .refl
  | drain => exact .of_become found rfl .refl
  | cancel pending =>
    cases pending with
    | nil => exact .of_become found rfl .refl
    | cons pending others =>
      -- The shutdown itself is no timer.
      have taken := timed.taken _ _ (Tasks.role?_of_get? found) pending List.mem_cons_self
      have apart := taken.timer_ne (Tasks.role?_of_get? found) (by rintro _ ⟨⟩)
      let middle := (state.cancelTimer pending.timer).note (.letGo pending.waiters)
      have known : middle.tasks.get? task = some (.shutdown (.cancel (pending :: others))) :=
        (Tasks.get?_cancelTimer_of_ne apart).trans found
      have shift : Shift task (middle.hold? task) middle.shared
          ((middle.become task (.shutdown (.cancel others))).hold? task) middle.shared :=
        .of_become known rfl .refl
      rw [State.hold?_of_get? known] at shift
      rw [State.hold?_of_get? found]
      exact shift
  | dispose => exact .of_endTask found (.aside rfl rfl (List.nil_sublist _))

end State

/-- Whether the lock belongs to the one task that stands between taking it and giving it back. -/
def Owned (hold : Nat → Option Hold) (shared : Shared) : Prop :=
  ∀ id, shared.publisher = some id ↔ hold id ≠ none

/-- What holds of the lock on publishing, of the tasks and of what is shown. -/
structure Guarded (hold : Nat → Option Hold) (shared : Shared) : Prop where
  /-- The lock belongs to the one task that stands between taking it and giving it back. -/
  owned : ∀ id, shared.publisher = some id ↔ hold id ≠ none
  /-- Nobody publishes while analyses are disabled. -/
  allowed : ∀ id, hold id = some .publish → shared.enabled = true
  /-- What is shown while analyses are disabled is about to be cleared. -/
  quiet : shared.enabled = false → shared.shown.files ≠ [] → ∃ id, hold id = some .wipe

theorem holdOf_ne_wipe (analysis : Analysis) : holdOf analysis ≠ some .wipe := by
  cases analysis <;> nofun

/-- An analysis that breaks off gives the lock back if it holds it. -/
theorem Owned.shift_of_breakOff (owned : Owned state.hold? state.shared) {analysis : Analysis}
    {root : String} {waiters : List Nat}
    (found : state.tasks.get? task = some (.drive root waiters (.analyze analysis))) :
    Shift task (holdOf analysis) state.shared none (state.shared.releaseBy task) := by
  have own := owned task
  rw [State.hold?_of_get? found] at own
  rw [Shared.releaseBy]
  cases holds : holdOf analysis with
  | none =>
    rw [if_neg fun held => own.mp held holds]
    exact .refl
  | some hold =>
    rw [if_pos (own.mpr (by simp [Task.hold?, holds]))]
    refine .give ?_
    rintro rfl
    exact holdOf_ne_wipe analysis holds

open State in
/-- Every step of a task is one of the listed shifts. -/
theorem Owned.shift_of_task (owned : Owned state.hold? state.shared)
    (reached : Reachable setup { shared } state) (h : step setup state event = some next)
    (acts : event.actor? = some task) :
    Shift task (state.hold? task) state.shared (next.hold? task) next.shared := by
  cases event with
  | trigger | setEnabled | shutDown | clearAll | clock => cases acts
  | step task =>
    cases acts
    obtain ⟨old, found, acts⟩ := Option.bind_eq_some_iff.mp h
    cases old with
    | trigger id path phase =>
      cases acts
      exact shift_of_stepTrigger reached.numbered found
    | timer root id elapsed =>
      cases elapsed with
      | false => cases acts
      | true =>
        cases acts
        exact shift_of_stepTimer found
    | drive root waiters phase => exact shift_of_stepDrive found acts
    | toggle value phase => exact shift_of_stepToggle found acts
    | shutdown phase =>
      cases acts
      exact shift_of_stepShutdown reached.timed found
  | elapse task =>
    cases acts
    simp only [step] at h
    split at h
    case h_1 root id found =>
      cases h
      exact .of_become found rfl .refl
    case h_2 => cases h
  | reply task reply volume =>
    cases acts
    simp only [step] at h
    split at h
    case h_1 root waiters analysis found =>
      split at h
      · next waits =>
        cases h
        cases analysis with
        | container stage =>
          refine .of_become found rfl ?_
          simp only [Task.hold?, Analysis.afterReply, holdOf_ofStage]
          exact .aside rfl rfl (List.Sublist.refl _)
        | _ => cases waits
      · cases h
    case h_2 => cases h
  | breakOff task =>
    cases acts
    simp only [step] at h
    split at h
    case h_1 => cases h
    case h_2 root waiters analysis _ found =>
      cases h
      exact .of_become found rfl (owned.shift_of_breakOff found)
    case h_3 => cases h

/-- A task enters without the lock. -/
theorem hold?_of_enter (numbered : state.tasks.Numbered state.nextTask) {entering : Task}
    (free : entering.hold? = none)
    (tasks : next.tasks = state.tasks ++ [(state.nextTask, entering)]) :
    next.hold? = state.hold? := by
  funext id
  rw [State.hold?, tasks, numbered.get?_append]
  split
  · next own =>
    rw [own, State.hold?, numbered.get?_next, Option.bind_none, Option.bind_some, free]
  · rfl

/-- What happens without a task touches no lock. -/
theorem shift_of_idle (numbered : state.tasks.Numbered state.nextTask)
    (h : step setup state event = some next) (idle : event.actor? = none) (hold : Option Hold) :
    next.hold? = state.hold? ∧ Shift task hold state.shared hold next.shared := by
  cases event with
  | step | elapse | reply | breakOff => cases idle
  | trigger path =>
    cases h
    have free : Task.hold? (.trigger state.nextTrigger path .start) = none := rfl
    exact ⟨hold?_of_enter numbered free rfl, .refl⟩
  | setEnabled value =>
    cases h
    have free : Task.hold? (.toggle value .acquire) = none := rfl
    exact ⟨hold?_of_enter numbered free rfl, .refl⟩
  | shutDown =>
    cases h
    have free : Task.hold? (.shutdown .start) = none := rfl
    exact ⟨hold?_of_enter numbered free rfl, .refl⟩
  | clearAll =>
    cases h
    exact ⟨rfl, .aside rfl rfl (List.nil_sublist _)⟩
  | clock now =>
    simp only [step] at h
    split at h
    · cases h
      exact ⟨rfl, .aside rfl rfl (List.Sublist.refl _)⟩
    · cases h

/-- Every step is one of the listed shifts, and changes no hold but that of its own task. -/
theorem Owned.shift_of_step (owned : Owned state.hold? state.shared)
    (reached : Reachable setup { shared } state) (h : step setup state event = some next) :
    ∃ task, next.hold? = Function.update state.hold? task (next.hold? task) ∧
      Shift task (state.hold? task) state.shared (next.hold? task) next.shared := by
  cases acts : event.actor? with
  | none =>
    -- No task has the number of the next one.
    obtain ⟨same, aside⟩ := shift_of_idle reached.numbered h acts (state.hold? state.nextTask)
    refine ⟨state.nextTask, ?_, ?_⟩
    · rw [same, Function.update_eq_self]
    · rw [same]
      exact aside
  | some task =>
    have move := move_of_step h
    rw [acts] at move
    refine ⟨task, ?_, owned.shift_of_task reached h acts⟩
    funext id
    rw [Function.update_apply]
    split
    · next own => rw [own]
    · next other => exact move.hold?_other reached.timed reached.numbered other

/-! ### Every step keeps it -/

section
variable {hold : Nat → Option Hold} {new : Option Hold} {after : Shared}

/-- Nobody else holds the lock while a task does. -/
theorem Owned.alone (owned : Owned hold shared) (holds : hold task ≠ none) (other : id ≠ task) :
    hold id = none := by
  by_contra holds'
  have same := (owned task).mpr holds
  rw [(owned id).mpr holds'] at same
  exact other (Option.some.inj same)

/-- Nobody holds a lock that is free. -/
theorem Owned.none_of_free (owned : Owned hold shared) (free : shared.publisher = none) (id : Nat) :
    hold id = none := by
  by_contra holds
  rw [(owned id).mpr holds] at free
  cases free

/-- Whose the lock is, if no other task holds it. -/
theorem owned_of_alone (rest : ∀ id, id ≠ task → hold id = none)
    (own : after.publisher = if new.isSome then some task else none) :
    Owned (Function.update hold task new) after := by
  intro id
  rw [own, Function.update_apply]
  by_cases same : id = task
  · rw [if_pos same, same]
    cases new <;> simp
  · rw [if_neg same, rest id same]
    cases new <;> simp [Ne.symm same]

theorem Owned.shift (owned : Owned hold shared) (shift : Shift task (hold task) shared new after) :
    Owned (Function.update hold task new) after := by
  generalize before : hold task = old at shift
  have alone (holds : old ≠ none) (id : Nat) (other : id ≠ task) : hold id = none :=
    owned.alone (before ▸ holds) other
  have own (holds : old ≠ none) : shared.publisher = some task :=
    (owned task).mpr (before ▸ holds)
  cases shift with
  | aside _ publisher =>
    rw [← before, Function.update_eq_self]
    intro id
    rw [publisher]
    exact owned id
  | take free => exact owned_of_alone (fun id _ => owned.none_of_free free id) rfl
  | give => exact owned_of_alone (alone nofun) rfl
  | begin | exhibit | finish | allow | forbid | wipe =>
    exact owned_of_alone (alone nofun) (own nofun)

/-- What is shown while analyses are disabled is about to be cleared by whoever holds the lock. -/
theorem Guarded.wiping (guarded : Guarded hold shared) (rest : ∀ id, id ≠ task → hold id = none)
    (off : shared.enabled = false) (some : shared.shown.files ≠ []) :
    hold task = Option.some .wipe := by
  obtain ⟨id, wipes⟩ := guarded.quiet off some
  by_cases own : id = task
  · rwa [own] at wipes
  · rw [rest id own] at wipes
    cases wipes

/-- What has to hold of one task, if no other task holds the lock. -/
theorem guarded_of_alone (owned : Owned (Function.update hold task new) after)
    (rest : ∀ id, id ≠ task → hold id = none) (allowed : new = some .publish → after.enabled = true)
    (quiet : after.enabled = false → after.shown.files ≠ [] → new = some .wipe) :
    Guarded (Function.update hold task new) after where
  owned := owned
  allowed id publishes := by
    rw [Function.update_apply] at publishes
    by_cases own : id = task
    · rw [if_pos own] at publishes
      exact allowed publishes
    · rw [if_neg own, rest id own] at publishes
      cases publishes
  quiet off some := ⟨task, by rw [Function.update_self, quiet off some]⟩

theorem Guarded.shift (guarded : Guarded hold shared)
    (shift : Shift task (hold task) shared new after) :
    Guarded (Function.update hold task new) after := by
  have owned : Owned hold shared := guarded.owned
  have owned' := owned.shift shift
  generalize before : hold task = old at shift
  have alone (holds : old ≠ none) (id : Nat) (other : id ≠ task) : hold id = none :=
    owned.alone (before ▸ holds) other
  have wiping (holds : old ≠ none) (off : shared.enabled = false)
      (some : shared.shown.files ≠ []) : old = Option.some .wipe :=
    before ▸ guarded.wiping (alone holds) off some
  cases shift with
  | aside enabled _ shown =>
    refine ⟨owned', ?_, ?_⟩
    · rw [← before, Function.update_eq_self, enabled]
      exact guarded.allowed
    · rw [← before, Function.update_eq_self, enabled]
      intro off some
      refine guarded.quiet off fun none => some ?_
      rw [none] at shown
      exact List.sublist_nil.mp shown
  | take free =>
    have rest (id : Nat) (_ : id ≠ task) : hold id = none := owned.none_of_free free id
    refine guarded_of_alone owned' rest nofun fun off some => ?_
    have wipes := guarded.wiping rest off some
    rw [before] at wipes
    cases wipes
  | begin on =>
    refine guarded_of_alone owned' (alone nofun) (fun _ => on) fun off _ => ?_
    rw [on] at off
    cases off
  | exhibit shown =>
    have on := guarded.allowed task before
    refine guarded_of_alone owned' (alone nofun) (fun _ => on) fun off _ => ?_
    dsimp only at off
    rw [on] at off
    cases off
  | finish =>
    refine guarded_of_alone owned' (alone nofun) nofun fun off _ => ?_
    rw [guarded.allowed task before] at off
    cases off
  | allow calm =>
    refine guarded_of_alone owned' (alone nofun) nofun fun off some => ?_
    rcases calm with rfl | calm
    · cases off
    · cases wiping nofun calm some
  | forbid => exact guarded_of_alone owned' (alone nofun) nofun fun _ _ => rfl
  | wipe =>
    exact guarded_of_alone owned' (alone nofun) nofun fun _ some => absurd rfl some
  | give kept =>
    refine guarded_of_alone owned' (alone nofun) nofun fun off some => ?_
    exact absurd (Option.some.inj (wiping nofun off some)) kept

end

/-- In every state that can come about, the lock on publishing belongs to the task that stands
between taking it and giving it back. -/
theorem Reachable.owned (reached : Reachable setup { shared } state)
    (free : shared.publisher = none) : Owned state.hold? state.shared := by
  obtain ⟨events, ran⟩ := reached
  refine run_induction ran ?_ ?_
  · intro id
    rw [free]
    exact ⟨nofun, fun holds => absurd rfl holds⟩
  · intro before event middle next ran happens owned
    obtain ⟨task, holds, shift⟩ := owned.shift_of_step ⟨before, ran⟩ happens
    rw [holds]
    exact owned.shift shift

theorem Reachable.guarded (reached : Reachable setup { shared } state)
    (free : shared.publisher = none) (empty : shared.shown.files = []) :
    Guarded state.hold? state.shared := by
  obtain ⟨events, ran⟩ := reached
  refine run_induction ran ⟨?_, nofun, fun _ some => absurd empty some⟩ ?_
  · intro id
    rw [free]
    exact ⟨nofun, fun holds => absurd rfl holds⟩
  · intro before event middle next ran happens guarded
    have owned : Owned middle.hold? middle.shared := guarded.owned
    obtain ⟨task, holds, shift⟩ := owned.shift_of_step ⟨before, ran⟩ happens
    rw [holds]
    exact guarded.shift shift

/-- In every state that can come about from an empty display, nothing is shown while analyses are
disabled and the lock on publishing is free; and while the lock is free no task stands between
taking it and giving it back. -/
theorem nothing_shown_while_disabled (reached : Reachable setup { shared } state)
    (free : shared.publisher = none) (empty : shared.shown.files = [])
    (off : state.shared.enabled = false) (unheld : state.shared.publisher = none) :
    state.shared.shown.files = [] ∧ ∀ id, state.hold? id = none := by
  have guarded := reached.guarded free empty
  have idle (id : Nat) : state.hold? id = none := by
    by_contra holds
    rw [(guarded.owned id).mpr holds] at unheld
    cases unheld
  refine ⟨?_, idle⟩
  by_contra some
  obtain ⟨id, wipes⟩ := guarded.quiet off some
  rw [idle id] at wipes
  cases wipes

/-- The files that a run of the container leaves, with one finding in its report. -/
def reportedFiles : Volume :=
  { disk := { tree := ⟨[(["a"], .directory), (["a", ".vscode"], .directory),
    (["a", ".vscode", "coding-style-reports.log"],
      .file (Text.encode "x.c:1:MAJOR:C-F3:x\n") false)]⟩ } }

/-- The finding of a report is published, and analyses are to be disabled meanwhile. -/
def toggleMidway : List Event :=
  [.trigger "/a", .step 0, .step 0, .step 0, .step 0, .step 1, .step 1, .step 1, .step 1,
    .reply 1 (.ok {}) reportedFiles, .step 1, .reply 1 (.ok {}) reportedFiles,
    .reply 1 (.ok {}) reportedFiles, .step 1, .step 1, .step 1, .step 1, .setEnabled false]

/-- The analysis gives the lock back, and the toggle does its work. -/
def toggleDone : List Event :=
  [.step 1, .step 1, .step 2, .step 2, .step 2, .step 2]

theorem nothing_shown_while_disabled_toggle :
    (run oneRoot { shared := fresh } toggleMidway).map
      (fun state => state.shared.shown.files.map (·.1)) = some ["/a/x.c"] ∧
    ∃ state, run oneRoot { shared := fresh } (toggleMidway ++ toggleDone) = some state ∧
      state.shared.enabled = false ∧ state.shared.publisher = none ∧
      state.shared.shown.files = [] := by
  refine ⟨by decide +kernel, ?_⟩
  have ran : (run oneRoot { shared := fresh } (toggleMidway ++ toggleDone)).map
      (fun state => (state.shared.enabled, state.shared.publisher)) = some (false, none) := by
    decide +kernel
  obtain ⟨state, reached, ends⟩ := Option.map_eq_some_iff.mp ran
  obtain ⟨off, unheld⟩ := Prod.mk.inj ends
  exact ⟨state, reached, off, unheld,
    (nothing_shown_while_disabled ⟨_, reached⟩ rfl rfl off unheld).1⟩

end StyleMonitor.Coordinator
