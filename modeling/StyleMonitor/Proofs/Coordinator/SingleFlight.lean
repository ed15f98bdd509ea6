import StyleMonitor.Proofs.Coordinator.Timers

/-!
# One analysis at a time

The flag in a root's slot stands for the one task that works on the root, from the step that sets
the flag to the last step of the task that sees to the slot. `Reachable.flights` counts these
tasks; `single_flight` puts together what follows for tasks, timers and their handles.
-/

namespace StyleMonitor.Coordinator

variable {setup : Setup} {shared : Shared} {state next : State} {actor : Option Nat}

/-- Counts a task that works on a root and has not seen to its slot for the last time. -/
def Role.drives (root : String) : Role → Nat
  | drive other _ leg => if Path.same other root ∧ leg ≠ .leaving then 1 else 0
  | trigger _ | timer .. | toggle | shutdown _ => 0

/-- How many tasks the flag of a slot stands for. -/
def Slot.flights (slot : Slot) : Nat :=
  if slot.running then 1 else 0

theorem Role.carries_le (id : Nat) (role : Role) : role.carries id ≤ 1 := by
  cases role with
  | timer root pending =>
    simp only [carries]
    split <;> omega
  | _ => exact Nat.zero_le _

theorem Role.drives_le (root : String) (role : Role) : role.drives root ≤ 1 := by
  cases role with
  | drive other waiters leg =>
    simp only [drives]
    split <;> omega
  | _ => exact Nat.zero_le _

/-- Every step keeps the flags and the tasks at work on the roots together. -/
theorem Timed.flights_kept (timed : Timed state) (numbered : state.tasks.Numbered state.nextTask)
    (h : ∀ root, state.tasks.tally (Role.drives root) = (state.slots.get root).flights)
    (move : Move state actor next) (root : String) :
    next.tasks.tally (Role.drives root) = (next.slots.get root).flights := by
  have old := h root
  have untimed : ∀ home id, Role.drives root (.timer home id) = 0 := fun _ _ => rfl
  cases move with
  | share => exact old
  | issue =>
    rw [Tasks.tally_append]
    exact old
  | enter task calm =>
    rw [Tasks.tally_enter calm rfl rfl]
    exact old
  | onward found task _ same =>
    rw [numbered.tally_onward found same]
    exact old
  | @arriveIdle _ _ _ home found | @arriveBusy _ _ _ home found =>
    rw [Tasks.tally_append]
    have sum := timed.tally_leave numbered untimed found home
    grind [Role.drives, Slot.flights, Slots.get_congr]
  | cancel found =>
    have sum := (numbered.cancelTimer _).tally_update (timed.get?_cancel found)
    have same := timed.tally_cancel numbered untimed found
    grind [Role.drives]
  | retire found | refuse found | ripen found | stale found | rest found | abandon found =>
    have sum := numbered.tally_remove found (Role.drives root)
    grind [Role.drives, Slot.flights, Slots.get_congr]
  | launch found | land found | deliver found | again found | giveUp found | leave found
  | close found | drain found | cancelled found =>
    have sum := numbered.tally_update found
    grind [Role.drives, Slot.flights, Slots.get_congr]

/-- The flag of a root stands for one task at work on it. -/
theorem Reachable.flights (reached : Reachable setup { shared } state) :
    ∀ root, state.tasks.tally (Role.drives root) = (state.slots.get root).flights := by
  refine reached.induction (fun _ => rfl) ?_
  intro state next actor reached _ h move
  exact reached.timed.flights_kept reached.numbered h move

/-- Nobody is at work on an idle root. -/
theorem Reachable.grounded (reached : Reachable setup { shared } state) {root : String}
    (idle : (state.slots.get root).running = false) {task : Nat} {role : Role}
    (found : state.tasks.role? task = some role) : role.drives root = 0 := by
  have flights := reached.flights root
  have le := Tasks.le_tally found (Role.drives root)
  rw [flights, Slot.flights, idle] at le
  exact Nat.le_zero.mp le

/-- Somebody is at work on a root whose flag is set. -/
theorem Reachable.works_of_running (reached : Reachable setup { shared } state) {root : String}
    (busy : (state.slots.get root).running = true) : ∃ task spelling waiters leg,
      Path.same spelling root = true ∧
      state.tasks.role? task = some (.drive spelling waiters leg) ∧ leg ≠ .leaving := by
  have works : 0 < state.tasks.tally (Role.drives root) := by
    rw [reached.flights root, Slot.flights, if_pos busy]
    exact Nat.zero_lt_one
  obtain ⟨task, old, found, drives⟩ := reached.numbered.exists_of_tally_pos works
  have role := Tasks.role?_of_get? found
  cases old with
  | drive spelling waiters phase =>
    have here : Path.same spelling root = true ∧ phase.leg ≠ .leaving := by
      by_contra away
      simp only [Task.role, Role.drives, if_neg away] at drives
      cases drives
    exact ⟨task, spelling, waiters, phase.leg, here.1, role, here.2⟩
  | _ => cases drives

/-- One task at most is at work on a root. -/
theorem Reachable.lone (reached : Reachable setup { shared } state) {root : String}
    {first second : Nat} {role other : Role} (found : state.tasks.role? first = some role)
    (found' : state.tasks.role? second = some other) (works : role.drives root = 1)
    (works' : other.drives root = 1) : first = second := by
  have few : (state.slots.get root).flights ≤ 1 := by
    unfold Slot.flights
    split <;> omega
  by_contra apart
  have two := reached.numbered.add_le_tally found' found apart (Role.drives root)
  rw [reached.flights root] at two
  omega

/-- In every state that can come about, a root's flag stands for exactly one task at work on the
root; a pending analysis that waits for its timer has exactly one, the task that its handle names;
and a task at work on a root is changed or ended by its own steps only, so no use of a handle ends
it. -/
theorem single_flight (reached : Reachable setup { shared } state) :
    (∀ root, (state.tasks.numbers (Role.drives root)).length =
      if (state.slots.get root).running then 1 else 0) ∧
    (∀ root pending timer, (state.slots.get root).pending = some pending →
      pending.timer = some timer → state.tasks.numbers (Role.carries pending.id) = [timer] ∧
      ∃ spelling, Path.same spelling root = true ∧
        state.tasks.role? timer = some (.timer spelling pending.id)) ∧
    (∀ event next task root waiters phase, step setup state event = some next →
      state.tasks.get? task = some (.drive root waiters phase) → event.actor? ≠ some task →
      next.tasks.get? task = some (.drive root waiters phase)) := by
  have numbered := reached.numbered
  have timed := reached.timed
  refine ⟨?_, ?_, ?_⟩
  · intro root
    rw [Tasks.length_numbers (Role.drives_le root)]
    exact reached.flights root
  · intro root pending timer waits held
    obtain ⟨spelling, same, found⟩ := timed.armed root pending timer waits held
    refine ⟨?_, spelling, same, found⟩
    have member : timer ∈ state.tasks.numbers (Role.carries pending.id) :=
      (Tasks.mem_numbers numbered).mpr ⟨_, found, by simp [Role.carries]⟩
    have few : (state.tasks.numbers (Role.carries pending.id)).length ≤ 1 := by
      rw [Tasks.length_numbers (Role.carries_le pending.id)]
      have := timed.single pending.id
      split at this <;> omega
    cases equal : state.tasks.numbers (Role.carries pending.id) with
    | nil => rw [equal] at member; cases member
    | cons first others =>
      rw [equal] at member few
      cases others with
      | nil => rw [List.mem_singleton.mp member]
      | cons second others => simp at few
  · intro event next task root waiters phase happens works other
    have untimed : ∀ spelling id,
        Task.role (.drive root waiters phase) ≠ .timer spelling id := by
      intro spelling id equal
      cases equal
    exact timed.get?_kept numbered works untimed (move_of_step happens) other

/-- One root, of which nothing else is asked. -/
def oneRoot : Setup := { workspace := ⟨["/a"], [], false⟩, holdsSources := fun _ _ => false }

/-- What is shared before anything has happened. -/
def fresh : Shared := { clock := ⟨0⟩ }

/-- A trigger arrives while a root is analyzed. -/
def secondTrigger : List Event :=
  [.trigger "/a", .step 0, .step 0, .step 0, .step 0,
    .trigger "/a", .step 2, .step 2, .step 2, .step 2]

theorem single_flight_secondTrigger : ∃ state,
    run oneRoot { shared := fresh } secondTrigger = some state ∧
    (state.tasks.numbers (Role.drives "/a")).length = 1 ∧
    state.tasks.numbers (Role.carries 0) = [3] ∧
    ∀ next, step oneRoot state (.elapse 3) = some next →
      next.tasks.get? 1 = some (State.driveFrom "/a" [0]) := by
  have reached : Reachable oneRoot { shared := fresh } _ := ⟨secondTrigger, rfl⟩
  obtain ⟨one, timer, untouched⟩ := single_flight reached
  refine ⟨_, rfl, one "/a", (timer "/a" ⟨0, some 3, [1]⟩ 3 rfl rfl).1, ?_⟩
  intro next happens
  exact untouched (.elapse 3) next 1 "/a" [0] _ happens rfl nofun

end StyleMonitor.Coordinator
