import StyleMonitor.Proofs.Analysis.Faults
import StyleMonitor.Proofs.Coordinator.Fates
import StyleMonitor.Proofs.Coordinator.Publishing

/-!
# Every analysis comes to an end

Each event of its own takes an analysis nearer to its end, and no event of others takes it back. It
can always go on, but for the time in which another task holds the lock on publishing; and whoever
holds the lock can go on. So the triggers of an analysis are answered in the end, whatever the
others do, if every task is given its turn again and again.
-/

namespace StyleMonitor.Coordinator

variable {setup : Setup} {shared : Shared} {state middle next : State} {event : Event}
  {events : List Event} {task holder : Nat} {root : String} {waiters : List Nat}
  {analysis : Analysis} {outcome : Outcome}

/-- Whether nothing in a row of events is the doing of a task. -/
def Elsewhere (task : Nat) (events : List Event) : Prop :=
  ∀ event ∈ events, event.actor? ≠ some task

/-- Whether a task can make a step, or waits for a command that can have any reply. -/
def State.CanGoOn (setup : Setup) (state : State) (task : Nat) : Prop :=
  (∃ next, step setup state (.step task) = some next) ∨
    ∀ reply volume, ∃ next, step setup state (.reply task reply volume) = some next

/-- Whether a task waits for the lock on publishing, and whoever holds it can make a step. -/
def State.Blocked (setup : Setup) (state : State) (task : Nat) : Prop :=
  (∃ root waiters findings,
    state.tasks.get? task = some (.drive root waiters (.analyze (.acquire findings)))) ∧
  ∃ holder next, state.shared.publisher = some holder ∧
    step setup state (.step holder) = some next

/-- A task comes to a goal, whatever others do in between, if it is given its turn again and again:
it can go on unless it is blocked, and every event of its own takes it nearer. -/
inductive Inevitable (setup : Setup) (task : Nat) (goal : State → Prop) : State → Prop where
  | now {state : State} (there : goal state) : Inevitable setup task goal state
  | later {state : State}
    (able : ∀ {events middle}, Elsewhere task events → run setup state events = some middle →
      middle.CanGoOn setup task ∨ middle.Blocked setup task)
    (onward : ∀ {events middle event next}, Elsewhere task events →
      run setup state events = some middle → event.actor? = some task →
      step setup middle event = some next → Inevitable setup task goal next) :
    Inevitable setup task goal state

/-! ### What an analysis can always do -/

/-- Every analysis that can come about is regular. -/
theorem Reachable.regular (reached : Reachable setup { shared } state) :
    ∀ task root waiters analysis,
      state.tasks.get? task = some (.drive root waiters (.analyze analysis)) →
      analysis.Regular := by
  obtain ⟨events, ran⟩ := reached
  refine run_induction ran nofun ?_
  intro before event state next came happens regular task root waiters analysis found
  have reached : Reachable setup { shared } state := ⟨before, came⟩
  rcases reached.drive_of_next happens found with
    ⟨-, known⟩ | begins | ⟨home, others, _, known, stride⟩
  · exact regular task root waiters analysis known
  · cases begins
    trivial
  · cases stride with
    | turn acts =>
      cases (State.get?_become known _).symm.trans found
      exact Analysis.regular_of_step acts
    | reply reply volume waits =>
      cases (State.get?_become known _).symm.trans found
      exact Analysis.regular_afterReply waits
    | again =>
      cases (State.get?_become known _).symm.trans found
      trivial
    | breakOff | land | deliver | giveUp => cases (State.get?_become known _).symm.trans found
    | rest | abandon =>
      rw [State.endTask, Tasks.get?_remove, if_pos rfl] at found
      cases found

/-- Others leave the work on a root where it is. -/
theorem Reachable.drive_kept_run (reached : Reachable setup { shared } state) {phase : DrivePhase}
    (found : state.tasks.get? task = some (.drive root waiters phase))
    (elsewhere : Elsewhere task events) (ran : run setup state events = some middle) :
    middle.tasks.get? task = some (.drive root waiters phase) := by
  revert elsewhere
  refine run_induction ran (fun _ => found) ?_
  intro before event middle next came happens ih elsewhere
  have found := ih fun event member => elsewhere event (List.mem_append_left _ member)
  exact (reached.of_run came).drive_kept happens found
    (elsewhere event (List.mem_append_right _ (List.mem_singleton_self _)))

open State in
/-- Whoever holds the lock on publishing can make a step. -/
theorem Owned.holder_steps (owned : Owned state.hold? state.shared)
    (held : state.shared.publisher = some holder) :
    ∃ next, step setup state (.step holder) = some next := by
  have holds := (owned holder).mp held
  simp only [step, task?]
  cases found : state.tasks.get? holder with
  | none => simp [State.hold?, found] at holds
  | some old =>
    rw [State.hold?_of_get? found] at holds
    cases old with
    | drive root waiters phase =>
      cases phase with
      | analyze analysis =>
        cases analysis with
        | publish files => cases files <;> exact ⟨_, rfl⟩
        | check | release => exact ⟨_, rfl⟩
        | _ => exact absurd rfl holds
      | _ => exact absurd rfl holds
    | toggle value phase =>
      cases phase with
      | acquire => exact absurd rfl holds
      | swap | clear | release => exact ⟨_, rfl⟩
    | _ => exact absurd rfl holds

theorem State.stepDrive_analyze (unended : ∀ outcome, analysis ≠ .ended outcome) :
    state.stepDrive setup task root waiters (.analyze analysis) =
      (analysis.step setup.analysis root task state.shared).map fun (later, after) =>
        { state with shared := after }.become task (.drive root waiters (.analyze later)) := by
  cases analysis with
  | ended outcome => exact absurd rfl (unended outcome)
  | _ => rfl

open State in
/-- An analysis under way can go on, unless it waits for the lock on publishing. -/
theorem Owned.canGoOn (owned : Owned state.hold? state.shared)
    (found : state.tasks.get? task = some (.drive root waiters (.analyze analysis))) :
    state.CanGoOn setup task ∨ state.Blocked setup task := by
  by_cases ended : ∃ outcome, analysis = .ended outcome
  · obtain ⟨outcome, rfl⟩ := ended
    exact Or.inl (Or.inl ⟨_, by simp only [step, task?, found]; rfl⟩)
  · have unended (outcome : Outcome) : analysis ≠ .ended outcome :=
      fun equal => ended ⟨outcome, equal⟩
    rcases Analysis.step_or_waits setup.analysis root task state.shared unended with
      ⟨later, after, acts⟩ | waits | ⟨⟨findings, rfl⟩, held⟩
    · refine Or.inl (Or.inl ?_)
      simp only [step, task?, found, Option.bind_some, stepTask, stepDrive_analyze unended, acts]
      exact ⟨_, rfl⟩
    · refine Or.inl (Or.inr fun reply volume => ?_)
      simp only [step, task?, found, waits, if_true]
      exact ⟨_, rfl⟩
    · obtain ⟨holder, held⟩ := Option.ne_none_iff_exists'.mp held
      obtain ⟨next, steps⟩ := owned.holder_steps held
      exact Or.inr ⟨⟨root, waiters, findings, found⟩, holder, next, held, steps⟩

/-! ### Towards the answer -/

/-- Whether the triggers of an analysis were answered, all alike. -/
def Told (waiters : List Nat) (state : State) : Prop :=
  ∃ outcome, ∀ waiter ∈ waiters, (waiter, outcome) ∈ state.answers

theorem told_of_note {entry : Entry}
    (answers : entry.answers = waiters.map fun waiter => (waiter, outcome)) (task : Nat)
    (new : Task) : Told waiters ((state.note entry).become task new) := by
  refine ⟨outcome, fun waiter member => ?_⟩
  refine mem_answers (List.mem_append_right _ (List.mem_singleton_self _)) ?_
  rw [answers]
  exact List.mem_map_of_mem member

open State in
theorem inevitable_of_answer (reached : Reachable setup { shared } state)
    (found : state.tasks.get? task = some (.drive root waiters (.answer outcome))) :
    Inevitable setup task (Told waiters) state := by
  refine .later (fun elsewhere ran => ?_) fun elsewhere ran own happens => ?_
  · have found := reached.drive_kept_run found elsewhere ran
    exact Or.inl (Or.inl ⟨_, by simp only [step, task?, found]; rfl⟩)
  · have found := reached.drive_kept_run found elsewhere ran
    cases stride_of_step happens found own with
    | deliver => exact .now (told_of_note rfl task _)

open State in
theorem inevitable_of_abandon (reached : Reachable setup { shared } state)
    (found : state.tasks.get? task = some (.drive root waiters .abandon)) :
    Inevitable setup task (Told waiters) state := by
  refine .later (fun elsewhere ran => ?_) fun elsewhere ran own happens => ?_
  · have found := reached.drive_kept_run found elsewhere ran
    exact Or.inl (Or.inl ⟨_, by simp only [step, task?, found]; rfl⟩)
  · have found := reached.drive_kept_run found elsewhere ran
    cases stride_of_step happens found own with
    | abandon =>
      refine .now ⟨.cancelled, fun waiter member => ?_⟩
      exact mem_answers (List.mem_append_right _ (List.mem_singleton_self _))
        (List.mem_map_of_mem member)

open State in
theorem inevitable_of_broken (reached : Reachable setup { shared } state)
    (found : state.tasks.get? task = some (.drive root waiters .broken)) :
    Inevitable setup task (Told waiters) state := by
  refine .later (fun elsewhere ran => ?_) fun elsewhere ran own happens => ?_
  · have found := reached.drive_kept_run found elsewhere ran
    exact Or.inl (Or.inl ⟨_, by simp only [step, task?, found]; rfl⟩)
  · have found := reached.drive_kept_run found elsewhere ran
    have reached := (reached.of_run ran).of_step happens
    cases stride_of_step happens found own with
    | giveUp => exact inevitable_of_abandon reached (get?_become found _)

/-- The triggers of an analysis under way are answered in the end. -/
theorem Reachable.inevitable (reached : Reachable setup { shared } state)
    (free : shared.publisher = none)
    (found : state.tasks.get? task = some (.drive root waiters (.analyze analysis))) :
    Inevitable setup task (Told waiters) state := by
  induction far : analysis.rank using WellFoundedLT.induction generalizing state analysis with
  | ind rank ih =>
    refine .later (fun elsewhere ran => ?_) fun elsewhere ran own happens => ?_
    · have found := reached.drive_kept_run found elsewhere ran
      exact ((reached.of_run ran).owned free).canGoOn found
    · have found := reached.drive_kept_run found elsewhere ran
      have regular := (reached.of_run ran).regular _ _ _ _ found
      have reached := (reached.of_run ran).of_step happens
      subst far
      cases stride_of_step happens found own with
      | turn acts =>
        exact ih _ (Analysis.rank_lt_of_step regular acts) reached (State.get?_become found _) rfl
      | reply reply volume waits =>
        exact ih _ (Analysis.rank_afterReply_lt waits) reached (State.get?_become found _) rfl
      | breakOff => exact inevitable_of_broken reached (State.get?_become found _)
      | land => exact inevitable_of_answer reached (State.get?_become found _)

end StyleMonitor.Coordinator
