import StyleMonitor.Proofs.Coordinator.Effects
import StyleMonitor.Proofs.Coordinator.SingleFlight
import StyleMonitor.Proofs.Workspace.Innermost

/-!
# The roots that tasks are about

Whatever a task is about is a root of the workspace, and two analyses of one root are one.
-/

namespace StyleMonitor

namespace Coordinator

variable {setup : Setup} {shared : Shared} {state next : State} {event : Event} {tasks : Tasks}
  {roots : List String} {id : Nat} {root : String}

/-- The root that a task is about, as far as it is known. -/
def Task.root? : Task → Option String
  | trigger _ _ (.resolved root) => some root
  | timer root _ _ => some root
  | drive root _ _ => some root
  | _ => none

/-- All tasks are about these roots. -/
def Tasks.Within (roots : List String) (tasks : Tasks) : Prop :=
  ∀ id task root, tasks.get? id = some task → task.root? = some root → root ∈ roots

namespace Tasks.Within

theorem update (within : tasks.Within roots) (id : Nat) {new : Task}
    (known : ∀ root, new.root? = some root → root ∈ roots) :
    (tasks.update id new).Within roots := by
  intro other task root found about
  rw [get?_update] at found
  split at found
  · obtain ⟨-, -, rfl⟩ := Option.map_eq_some_iff.mp found
    exact known root about
  · exact within other task root found about

theorem remove (within : tasks.Within roots) (id : Nat) : (tasks.remove id).Within roots := by
  intro other task root found about
  rw [get?_remove] at found
  split at found
  · cases found
  · exact within other task root found about

theorem cancelTimer (within : tasks.Within roots) (timer : Option Nat) :
    (tasks.cancelTimer timer).Within roots :=
  fun other task root found about => within other task root (get?_of_cancelTimer found) about

theorem append (within : tasks.Within roots) {bound : Nat} (numbered : tasks.Numbered bound)
    {new : Task} (known : ∀ root, new.root? = some root → root ∈ roots) :
    Within roots (tasks ++ [(bound, new)]) := by
  intro other task root found about
  rw [numbered.get?_append] at found
  split at found
  · cases found
    exact known root about
  · exact within other task root found about

end Tasks.Within

/-- A trigger that goes on finds its root among those of the workspace. -/
theorem resolved_of_step {trigger : Nat} {path : String}
    (happens : step setup state event = some next) (own : event.actor? = some id)
    (goesOn : next.nextTask = state.nextTask)
    (found : next.tasks.get? id = some (.trigger trigger path (.resolved root)))
    {old : Task} (known : state.tasks.get? id = some old)
    (same : old.role = .trigger trigger) : root ∈ setup.workspace.roots := by
  cases old with
  | timer | drive | toggle | shutdown => cases same
  | trigger number own_path phase =>
    cases event with
    | trigger | setEnabled | shutDown | clearAll | clock => cases own
    | elapse | reply | breakOff =>
      cases own
      simp [step, State.task?, known] at happens
    | step =>
      cases own
      simp only [step, State.task?, known, Option.bind_some, State.stepTask] at happens
      cases happens
      have become {new : Task} : (state.become id new).tasks.get? id = some new :=
        State.get?_become known new
      have gone (entry : Entry) : ((state.note entry).endTask id).tasks.get? id = none := by
        rw [State.endTask, Tasks.get?_remove, if_pos rfl]
      cases phase with
      | start | asked =>
        simp only [State.stepTrigger] at found
        split at found
        · first
            | cases (gone _).symm.trans found
            | cases become.symm.trans found
        · first
            | cases (gone _).symm.trans found
            | cases become.symm.trans found
      | admitted =>
        simp only [State.stepTrigger] at found
        split at found
        · next resolved =>
          cases become.symm.trans found
          exact Workspace.mem_of_resolve resolved
        · cases (gone _).symm.trans found
      | resolved home =>
        -- Now the trigger has arrived, and another task was started.
        simp only [State.stepTrigger] at goesOn
        split at goesOn
        · exact absurd goesOn (Nat.succ_ne_self _)
        · exact absurd goesOn (Nat.succ_ne_self _)

/-- Whatever a task is about is a root of the workspace. -/
theorem Reachable.within (reached : Reachable setup { shared } state) :
    state.tasks.Within setup.workspace.roots := by
  obtain ⟨events, ran⟩ := reached
  refine run_induction ran nofun ?_
  intro before event state next came happens within
  have reached : Reachable setup { shared } state := ⟨before, came⟩
  have numbered := reached.numbered
  have move := move_of_step happens
  generalize own : event.actor? = actor at move
  cases move with
  | share => exact within
  | issue => exact within.append numbered nofun
  | enter task calm =>
    refine within.append numbered fun root about => ?_
    cases task with
    | trigger | timer | drive => rcases calm with calm | calm <;> cases calm
    | toggle | shutdown => cases about
  | @onward id old found new _ same =>
    refine within.update id fun root about => ?_
    cases new with
    | toggle | shutdown => cases about
    | timer home =>
      cases about
      cases old with
      | timer =>
        cases same
        exact within id _ _ found rfl
      | trigger | drive | toggle | shutdown => cases same
    | drive home =>
      cases about
      cases old with
      | drive =>
        obtain ⟨rfl, -⟩ := Role.drive.inj same
        exact within id _ _ found rfl
      | trigger | timer | toggle | shutdown => cases same
    | trigger number path phase =>
      cases phase with
      | resolved home =>
        cases about
        have known : (state.tasks.update id (.trigger number path (.resolved root))).get? id =
            some (.trigger number path (.resolved root)) := by
          rw [Tasks.get?_update, if_pos rfl, found, Option.map_some]
        exact resolved_of_step happens own rfl known found same.symm
      | start | asked | admitted => cases about
  | arriveIdle found | arriveBusy found =>
    have known := within _ _ _ found rfl
    refine ((within.remove _).cancelTimer _).append ((numbered.remove _).cancelTimer _) ?_
    rintro _ ⟨⟩
    exact known
  | launch found | again found | land found | deliver found | giveUp found | leave found =>
    have known := within _ _ _ found rfl
    refine within.update _ ?_
    rintro _ ⟨⟩
    exact known
  | close | drain | cancelled => exact within.update _ nofun
  | cancel => exact (within.cancelTimer _).update _ nofun
  | retire | refuse | ripen | stale | rest | abandon => exact within.remove _

/-- Two analyses of one root are one. -/
theorem Reachable.lone_analysis (reached : Reachable setup { shared } state) {first second : Nat}
    {other : String} {waiters others : List Nat} {analysis further : Analysis}
    (found : state.tasks.get? first = some (.drive root waiters (.analyze analysis)))
    (found' : state.tasks.get? second = some (.drive other others (.analyze further)))
    (same : Path.same other root = true) : first = second := by
  have works {home : String} {waiters : List Nat} (same : Path.same home root = true) :
      (Role.drive home waiters .flying).drives root = 1 := by
    simp [Role.drives, same]
  exact reached.lone (Tasks.role?_of_get? found) (Tasks.role?_of_get? found')
    (works (Path.same_refl root)) (works same)

end Coordinator

end StyleMonitor
