import Mathlib.Data.List.Induction
import StyleMonitor.Proofs.Coordinator.Roles
import StyleMonitor.Proofs.Coordinator.Slots

/-!
# What a step can do

`Move` lists the ways in which one event can change the coordinator, guards included, and names
the task whose doing the change is. `move_of_step` shows that every step is one of them; what holds
of all reachable states is proved from the list, without opening the machine again.
-/

namespace StyleMonitor.Coordinator

/-- The task whose own doing an event is. -/
def Event.actor? : Event → Option Nat
  | step task | elapse task | reply task _ _ | breakOff task => some task
  | trigger _ | setEnabled _ | shutDown | clearAll | clock _ => none

/-- The triggers that wait at a root. -/
def State.queue (state : State) (root : String) : List Nat :=
  Slots.waitersOf (state.slots.get root)

/-- The ways in which one event can change the coordinator. -/
inductive Move (state : State) : Option Nat → State → Prop where
  /-- Only what is shared changes. -/
  | share (shared : Shared) : Move state none { state with shared }
  | issue (path : String) : Move state none { state with
      tasks := state.tasks ++ [(state.nextTask, .trigger state.nextTrigger path .start)]
      nextTask := state.nextTask + 1
      nextTrigger := state.nextTrigger + 1 }
  | enter (task : Task) (calm : task.role = .toggle ∨ task.role = .shutdown .start) :
    Move state none { state with
      tasks := state.tasks ++ [(state.nextTask, task)]
      nextTask := state.nextTask + 1 }
  /-- A task goes on in the same role. -/
  | onward {id : Nat} {old : Task} (found : state.tasks.get? id = some old) (task : Task)
    (shared : Shared) (same : task.role = old.role) : Move state (some id) { state with
      shared
      tasks := state.tasks.update id task }
  /-- A toggle or a shutdown ends. -/
  | retire {id : Nat} {old : Task} (found : state.tasks.get? id = some old) (shared : Shared)
    (calm : old.role = .toggle ∨ old.role = .shutdown .start ∨ old.role = .shutdown .dispose) :
    Move state (some id) { state with
      shared
      tasks := state.tasks.remove id }
  | refuse {task id : Nat} {path : String} {phase : TriggerPhase}
    (found : state.tasks.get? task = some (.trigger id path phase)) (reason : Skip) :
    Move state (some task) { state with
      tasks := state.tasks.remove task
      journal := state.journal ++ [.refused id reason] }
  /-- A trigger arrives at an idle root. -/
  | arriveIdle {task id : Nat} {path root : String}
    (found : state.tasks.get? task = some (.trigger id path (.resolved root)))
    (idle : (state.slots.get root).running = false) : Move state (some task) { state with
      slots := state.slots.set root ⟨true, none⟩
      tasks := (state.tasks.remove task).cancelTimer (Slots.timerOf (state.slots.get root)) ++
        [(state.nextTask, State.driveFrom root (state.queue root ++ [id]))]
      nextTask := state.nextTask + 1
      journal := state.journal ++ [.arrived root id] ++
        [.started root state.nextTask (state.queue root ++ [id])] }
  /-- A trigger arrives at a root that is being analyzed. -/
  | arriveBusy {task id : Nat} {path root : String}
    (found : state.tasks.get? task = some (.trigger id path (.resolved root)))
    (busy : (state.slots.get root).running = true) : Move state (some task) { state with
      slots := state.slots.set root
        ⟨true, some ⟨state.nextPending, some state.nextTask, state.queue root ++ [id]⟩⟩
      tasks := (state.tasks.remove task).cancelTimer (Slots.timerOf (state.slots.get root)) ++
        [(state.nextTask, .timer root state.nextPending false)]
      nextTask := state.nextTask + 1
      nextPending := state.nextPending + 1
      journal := state.journal ++ [.arrived root id] }
  /-- A timer starts the pending analysis of an idle root. -/
  | launch {task : Nat} {root : String} {pending : Pending}
    (found : state.tasks.get? task = some (.timer root pending.id true))
    (waits : (state.slots.get root).pending = some pending)
    (idle : (state.slots.get root).running = false) : Move state (some task) { state with
      slots := state.slots.set root ⟨true, none⟩
      tasks := state.tasks.update task (State.driveFrom root pending.waiters)
      journal := state.journal ++ [.started root task pending.waiters] }
  /-- A timer makes the pending analysis of a root ready. -/
  | ripen {task : Nat} {root : String} {pending : Pending}
    (found : state.tasks.get? task = some (.timer root pending.id true))
    (waits : (state.slots.get root).pending = some pending)
    (busy : (state.slots.get root).running = true) : Move state (some task) { state with
      slots := state.slots.set root ⟨true, some { pending with timer := none }⟩
      tasks := state.tasks.remove task }
  /-- A timer finds that another pending analysis, or none, took the place of its own. -/
  | stale {task id : Nat} {root : String}
    (found : state.tasks.get? task = some (.timer root id true))
    (replaced : ∀ pending, (state.slots.get root).pending = some pending → pending.id ≠ id) :
    Move state (some task) { state with tasks := state.tasks.remove task }
  /-- An analysis has ended. -/
  | land {task : Nat} {root : String} {waiters : List Nat} {outcome : Outcome}
    (found : state.tasks.get? task = some (.drive root waiters (.analyze (.ended outcome)))) :
    Move state (some task) { state with
      tasks := state.tasks.update task (.drive root waiters (.answer outcome))
      journal := state.journal ++ [.ended root task outcome] }
  /-- The triggers of an analysis are given its outcome. -/
  | deliver {task : Nat} {root : String} {waiters : List Nat} {outcome : Outcome}
    (found : state.tasks.get? task = some (.drive root waiters (.answer outcome))) :
    Move state (some task) { state with
      tasks := state.tasks.update task (.drive root [] .settle)
      journal := state.journal ++ [.answered root task waiters outcome] }
  /-- The pending analysis of a root follows the one that ended. -/
  | again {task : Nat} {root : String} {waiters : List Nat} {pending : Pending}
    (found : state.tasks.get? task = some (.drive root waiters .settle))
    (waits : (state.slots.get root).pending = some pending) (ripe : pending.timer = none)
    (up : state.shutDown = false) : Move state (some task) { state with
      slots := state.slots.set root ⟨(state.slots.get root).running, none⟩
      tasks := state.tasks.update task (State.driveFrom root pending.waiters)
      journal := state.journal ++ [.started root task pending.waiters] }
  /-- No analysis follows the one that ended. -/
  | rest {task : Nat} {root : String} {waiters : List Nat}
    (found : state.tasks.get? task = some (.drive root waiters .settle))
    (unripe : ∀ pending, (state.slots.get root).pending = some pending →
      pending.timer = none → state.shutDown = true) : Move state (some task) { state with
      slots := state.slots.set root ⟨false, (state.slots.get root).pending⟩
      tasks := state.tasks.remove task }
  /-- After an analysis broke off, a pending one that is ready is given up. -/
  | giveUp {task : Nat} {root : String} {waiters : List Nat} {pending : Pending}
    (found : state.tasks.get? task = some (.drive root waiters .broken))
    (waits : (state.slots.get root).pending = some pending) (ripe : pending.timer = none) :
    Move state (some task) { state with
      slots := state.slots.set root ⟨false, none⟩
      tasks := state.tasks.update task (.drive root waiters .abandon)
      journal := state.journal ++ [.brokenOff root task pending.waiters] }
  /-- After an analysis broke off, a pending one that is not ready is left to its timer. -/
  | leave {task : Nat} {root : String} {waiters : List Nat}
    (found : state.tasks.get? task = some (.drive root waiters .broken))
    (unripe : ∀ pending, (state.slots.get root).pending = some pending →
      pending.timer ≠ none) : Move state (some task) { state with
      slots := state.slots.set root ⟨false, (state.slots.get root).pending⟩
      tasks := state.tasks.update task (.drive root waiters .abandon)
      journal := state.journal ++ [.brokenOff root task []] }
  /-- The triggers of an analysis that broke off are let go. -/
  | abandon {task : Nat} {root : String} {waiters : List Nat}
    (found : state.tasks.get? task = some (.drive root waiters .abandon)) :
    Move state (some task) { state with
      tasks := state.tasks.remove task
      journal := state.journal ++ [.letGo waiters] }
  /-- A shutdown begins. -/
  | close {task : Nat} (found : state.tasks.get? task = some (.shutdown .start)) :
    Move state (some task) { state with
      shutDown := true
      tasks := state.tasks.update task (.shutdown .drain) }
  | drain {task : Nat} (found : state.tasks.get? task = some (.shutdown .drain)) :
    Move state (some task) { state with
      slots := state.slots.drain.1
      tasks := state.tasks.update task (.shutdown (.cancel state.slots.drain.2))
      journal := state.journal ++ [.drained] }
  /-- A shutdown cancels a pending analysis that it took out. -/
  | cancel {task : Nat} {pending : Pending} {others : List Pending}
    (found : state.tasks.get? task = some (.shutdown (.cancel (pending :: others)))) :
    Move state (some task) { state with
      tasks := (state.tasks.cancelTimer pending.timer).update task (.shutdown (.cancel others))
      journal := state.journal ++ [.letGo pending.waiters] }
  | cancelled {task : Nat} (found : state.tasks.get? task = some (.shutdown (.cancel []))) :
    Move state (some task) { state with
      tasks := state.tasks.update task (.shutdown .dispose) }

variable {setup : Setup} {state next : State} {actor : Option Nat}

/-- What was noted stays noted. -/
theorem Move.journal_eq (move : Move state actor next) :
    ∃ entries, next.journal = state.journal ++ entries := by
  cases move with
  | arriveIdle => exact ⟨_, List.append_assoc _ _ _⟩
  | refuse | arriveBusy | launch | land | deliver | again | giveUp | leave | abandon | drain
  | cancel => exact ⟨_, rfl⟩
  | share | issue | enter | onward | retire | ripen | stale | rest | close | cancelled =>
    exact ⟨[], (List.append_nil _).symm⟩

theorem Move.mem_journal (move : Move state actor next) {entry : Entry}
    (noted : entry ∈ state.journal) : entry ∈ next.journal := by
  obtain ⟨entries, equal⟩ := move.journal_eq
  rw [equal]
  exact List.mem_append_left _ noted

namespace State

variable {task : Nat}

/-! ### One kind of task after the other -/

theorem move_of_stepTrigger {id : Nat} {path : String} {phase : TriggerPhase}
    (found : state.tasks.get? task = some (.trigger id path phase)) :
    Move state (some task) (stepTrigger setup task id path state phase) := by
  cases phase with
  | start =>
    simp only [stepTrigger]
    split
    · exact .refuse found _
    · exact .onward found _ state.shared rfl
  | asked =>
    simp only [stepTrigger]
    split
    · exact .onward found _ state.shared rfl
    · exact .refuse found _
  | admitted =>
    simp only [stepTrigger]
    split
    · exact .onward found _ state.shared rfl
    · exact .refuse found _
  | resolved root =>
    simp only [stepTrigger, Slots.arrive]
    cases busy : (state.slots.get root).running with
    | false => exact .arriveIdle found busy
    | true => exact .arriveBusy found busy

theorem move_of_stepTimer {root : String} {id : Nat}
    (found : state.tasks.get? task = some (.timer root id true)) :
    Move state (some task) (stepTimer task root id state) := by
  unfold stepTimer
  by_cases own : ∃ pending, (state.slots.get root).pending = some pending ∧ pending.id = id
  · obtain ⟨pending, waits, rfl⟩ := own
    cases busy : (state.slots.get root).running with
    | false =>
      rw [Slots.elapse_of_idle waits busy]
      exact .launch found waits busy
    | true =>
      rw [Slots.elapse_of_busy waits busy]
      exact .ripen found waits busy
  · have replaced : ∀ pending, (state.slots.get root).pending = some pending → pending.id ≠ id :=
      fun pending waits same => own ⟨pending, waits, same⟩
    rw [Slots.elapse_of_replaced replaced]
    exact .stale found replaced

theorem move_of_stepDrive {root : String} {waiters : List Nat} {phase : DrivePhase}
    (found : state.tasks.get? task = some (.drive root waiters phase))
    (h : stepDrive setup task root waiters state phase = some next) :
    Move state (some task) next := by
  cases phase with
  | analyze analysis =>
    cases analysis with
    | ended outcome =>
      cases h
      exact .land found
    | _ =>
      simp only [stepDrive] at h
      obtain ⟨⟨onward, shared⟩, _, rfl⟩ := Option.map_eq_some_iff.mp h
      exact .onward found _ shared rfl
  | answer outcome =>
    cases h
    exact .deliver found
  | settle =>
    by_cases ripe : ∃ pending, (state.slots.get root).pending = some pending ∧
      pending.timer = none ∧ state.shutDown = false
    · obtain ⟨pending, waits, ripe, up⟩ := ripe
      simp only [stepDrive, Slots.finish_of_ripe waits ripe up] at h
      cases h
      exact .again found waits ripe up
    · have unripe : ∀ pending, (state.slots.get root).pending = some pending →
          pending.timer = none → state.shutDown = true := by
        intro pending waits elapsed
        by_contra up
        exact ripe ⟨pending, waits, elapsed, Bool.eq_false_iff.mpr up⟩
      simp only [stepDrive, Slots.finish_of_unripe unripe] at h
      cases h
      exact .rest found unripe
  | broken =>
    by_cases ripe : ∃ pending, (state.slots.get root).pending = some pending ∧
      pending.timer = none
    · obtain ⟨pending, waits, ripe⟩ := ripe
      simp only [stepDrive, Slots.breakOff_of_ripe waits ripe] at h
      cases h
      exact .giveUp found waits ripe
    · have unripe : ∀ pending, (state.slots.get root).pending = some pending →
          pending.timer ≠ none := fun pending waits elapsed => ripe ⟨pending, waits, elapsed⟩
      simp only [stepDrive, Slots.breakOff_of_unripe unripe] at h
      cases h
      exact .leave found unripe
  | abandon =>
    cases h
    exact .abandon found

theorem move_of_stepToggle {value : Bool} {phase : TogglePhase}
    (found : state.tasks.get? task = some (.toggle value phase))
    (h : stepToggle task value state phase = some next) : Move state (some task) next := by
  cases phase with
  | acquire =>
    simp only [stepToggle] at h
    split at h
    · cases h
    · cases h
      exact .onward found _ _ rfl
  | swap =>
    cases h
    exact .onward found _ _ rfl
  | clear =>
    cases h
    exact .onward found _ _ rfl
  | release =>
    cases h
    exact .retire found _ (Or.inl rfl)

theorem move_of_stepShutdown {phase : ShutdownPhase}
    (found : state.tasks.get? task = some (.shutdown phase)) :
    Move state (some task) (stepShutdown task state phase) := by
  cases phase with
  | start =>
    simp only [stepShutdown]
    cases down : state.shutDown with
    | false => exact .close found
    | true => exact .retire found state.shared (Or.inr (Or.inl rfl))
  | drain => exact .drain found
  | cancel pending =>
    cases pending with
    | nil => exact .cancelled found
    | cons pending others => exact .cancel found
  | dispose => exact .retire found _ (Or.inr (Or.inr rfl))

end State

open State in
/-- Every step is one of the listed ways to change the coordinator. -/
theorem move_of_step {event : Event} (h : step setup state event = some next) :
    Move state event.actor? next := by
  cases event with
  | trigger path =>
    cases h
    exact .issue path
  | setEnabled value =>
    cases h
    exact .enter _ (Or.inl rfl)
  | shutDown =>
    cases h
    exact .enter _ (Or.inr rfl)
  | clearAll =>
    cases h
    exact .share _
  | step task =>
    obtain ⟨found, hfound, hstep⟩ := Option.bind_eq_some_iff.mp h
    cases found with
    | trigger id path phase =>
      cases hstep
      exact move_of_stepTrigger hfound
    | timer root id elapsed =>
      cases elapsed with
      | false => cases hstep
      | true =>
        cases hstep
        exact move_of_stepTimer hfound
    | drive root waiters phase => exact move_of_stepDrive hfound hstep
    | toggle value phase => exact move_of_stepToggle hfound hstep
    | shutdown phase =>
      cases hstep
      exact move_of_stepShutdown hfound
  | elapse task =>
    simp only [step] at h
    split at h
    case h_1 root id found =>
      cases h
      exact .onward found _ state.shared rfl
    case h_2 => cases h
  | reply task reply volume =>
    simp only [step] at h
    split at h
    case h_1 root waiters analysis found =>
      split at h
      · cases h
        exact .onward found _ _ rfl
      · cases h
    case h_2 => cases h
  | breakOff task =>
    simp only [step] at h
    split at h
    case h_1 => cases h
    case h_2 root waiters analysis _ found =>
      cases h
      exact .onward found _ _ rfl
    case h_3 => cases h
  | clock now =>
    simp only [step] at h
    split at h
    · cases h
      exact .share _
    · cases h

/-- What holds at the start and is kept by every step holds of all reachable states. What is
known of reachable states may be used for the step. -/
@[elab_as_elim]
theorem Reachable.induction {start : State} {P : State → Prop}
    (reached : Reachable setup start state) (base : P start)
    (kept : ∀ {state next actor}, Reachable setup start state → Reachable setup start next →
      P state → Move state actor next → P next) : P state := by
  obtain ⟨events, h⟩ := reached
  induction events using List.reverseRecOn generalizing state with
  | nil =>
    cases h
    exact base
  | append_singleton events event ih =>
    have reached : Reachable setup start state := ⟨_, h⟩
    rw [run, List.foldlM_append] at h
    obtain ⟨middle, hmiddle, hlast⟩ := Option.bind_eq_some_iff.mp h
    obtain ⟨last, hstep, rest⟩ := Option.bind_eq_some_iff.mp hlast
    cases rest
    exact kept ⟨events, hmiddle⟩ reached (ih hmiddle) (move_of_step hstep)

end StyleMonitor.Coordinator
