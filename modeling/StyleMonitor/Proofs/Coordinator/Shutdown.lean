import StyleMonitor.Proofs.Coordinator.Endings
import StyleMonitor.Proofs.Coordinator.Turns

/-!
# After a shutdown

On a single thread a shutdown lets the triggers of all pending analyses go and leaves the
coordinator `Down`. There it stays, even if from then on the steps of tasks mix as they like: no
analysis starts, nothing is shown, and every trigger is refused. The analyses under way go on and
answer their triggers.
-/

namespace StyleMonitor.Coordinator

variable {setup : Setup} {shared after : Shared} {state middle last next : State} {event : Event}
  {events : List Event} {actor : Option Nat} {id task : Nat}

/-! ### Down for good -/

/-- Whether the coordinator is shut down, and no trigger can slip in. -/
structure State.Down (state : State) : Prop where
  closed : state.shutDown = true
  drained : ∀ root, (state.slots.get root).pending = none
  /-- No trigger has looked at the flags and not arrived yet. -/
  early : ∀ task id path phase, state.tasks.get? task = some (.trigger id path phase) →
    phase = .start
  disposed : state.shared.shown = ⟨[], true⟩

/-- Whether no analysis starts in a row of entries. -/
def Startless (entries : List Entry) : Prop :=
  ∀ root task waiters, .started root task waiters ∉ entries

theorem Startless.append {first second : List Entry} (quiet : Startless first)
    (quiet' : Startless second) : Startless (first ++ second) :=
  fun root task waiters member => (List.mem_append.mp member).elim (quiet root task waiters)
    (quiet' root task waiters)

/-- A trigger is refused when it looks whether the coordinator is shut down. -/
theorem State.Down.refuses (down : state.Down) {path : String} {phase : TriggerPhase}
    (found : state.tasks.get? task = some (.trigger id path phase)) :
    step setup state (.step task) = some ((state.note (.refused id .shutDown)).endTask task) := by
  cases down.early _ _ _ _ found
  simp only [step, task?, found, Option.bind_some, stepTask, stepTrigger, down.closed, if_true]

/-- What was disposed of shows nothing any more. -/
theorem disposed_of_effect (effect : Effect setup state event after)
    (disposed : state.shared.shown = ⟨[], true⟩) : after.shown = ⟨[], true⟩ := by
  cases effect with
  | idle | clock | reply | acquire | swap | release => exact disposed
  | clearAll | wipe =>
    rw [disposed]
    rfl
  | dispose => rfl
  | breakOff =>
    rw [Shared.releaseBy]
    split <;> exact disposed
  | turn _ acts =>
    cases Analysis.turn_of_step acts with
    | clear | exhibit =>
      rw [disposed]
      rfl
    | skip | enter | advance | read | unreadable | acquire | publish | drop | complete | release
    | notify | hush | fail => exact disposed

/-- While the coordinator is down no analysis starts, and none becomes pending. -/
theorem State.Down.of_move (down : state.Down) (move : Move state actor next) :
    next.shutDown = true ∧ (∀ root, (next.slots.get root).pending = none) ∧
      ∃ entries, next.journal = state.journal ++ entries ∧ Startless entries := by
  have quiet (entry : Entry) (other : entry.starts = []) : Startless [entry] := by
    intro root task waiters member
    rw [← List.mem_singleton.mp member] at other
    cases other
  cases move with
  | arriveIdle found | arriveBusy found => cases down.early _ _ _ _ found
  | launch _ waits | ripen _ waits | again _ waits | giveUp _ waits =>
    rw [down.drained] at waits
    cases waits
  | share | issue | enter | onward | retire | stale | cancelled =>
    exact ⟨down.closed, down.drained, [], (List.append_nil _).symm, nofun⟩
  | close => exact ⟨rfl, down.drained, [], (List.append_nil _).symm, nofun⟩
  | refuse | land | deliver | abandon | cancel =>
    exact ⟨down.closed, down.drained, _, rfl, quiet _ rfl⟩
  | rest =>
    refine ⟨down.closed, fun root => ?_, [], (List.append_nil _).symm, nofun⟩
    rw [Slots.pending_set_flag]
    exact down.drained root
  | leave =>
    refine ⟨down.closed, fun root => ?_, _, rfl, quiet _ rfl⟩
    rw [Slots.pending_set_flag]
    exact down.drained root
  | drain =>
    refine ⟨down.closed, fun root => ?_, _, rfl, quiet _ rfl⟩
    rw [Slots.get_drain]

/-- A trigger that is there after a step was there before and has not moved, or has just been
issued. -/
theorem State.Down.early_of_step (down : state.Down) (reached : Reachable setup { shared } state)
    (happens : Coordinator.step setup state event = some next) (trigger : Nat) (path : String)
    (phase : TriggerPhase) (found : next.tasks.get? task = some (.trigger trigger path phase)) :
    phase = .start := by
  have move := move_of_step happens
  by_cases own : event.actor? = some task
  · obtain ⟨old, known⟩ := exists_of_actor happens own
    cases old with
    | trigger =>
      cases event with
      | trigger | setEnabled | shutDown | clearAll | clock => cases own
      | step =>
        cases own
        cases (down.refuses known).symm.trans happens
        rw [endTask, Tasks.get?_remove, if_pos rfl] at found
        cases found
      | elapse | reply | breakOff =>
        cases own
        simp [Coordinator.step, task?, known] at happens
    | timer | drive | toggle | shutdown =>
      rw [own] at move
      have role := Tasks.role?_of_get? found
      have before := Tasks.role?_of_get? known
      have numbered := reached.numbered
      cases move with
      | cancel cancels =>
        rw [Tasks.get?_update, if_pos rfl, reached.timed.get?_cancel cancels] at found
        cases found
      | arriveIdle known' | arriveBusy known' => cases known.symm.trans known'
      | _ => grind [Task.role]
  · rcases move.get?_known reached.numbered found own with known | newborn
    · exact down.early _ _ _ _ known
    · cases phase with
      | start => rfl
      | asked | admitted | resolved => cases newborn

theorem State.Down.step (down : state.Down) (reached : Reachable setup { shared } state)
    (happens : Coordinator.step setup state event = some next) : next.Down ∧
      ∃ entries, next.journal = state.journal ++ entries ∧ Startless entries := by
  obtain ⟨closed, drained, noted⟩ := down.of_move (move_of_step happens)
  refine ⟨⟨closed, drained, ?_, ?_⟩, noted⟩
  · intro task id path phase found
    exact down.early_of_step reached happens id path phase found
  · exact disposed_of_effect (effect_of_step happens) down.disposed

/-- A coordinator that is down stays down, and starts no analysis. -/
theorem State.Down.run (down : state.Down) (reached : Reachable setup { shared } state)
    (ran : Coordinator.run setup state events = some last) : last.Down ∧
      ∃ entries, last.journal = state.journal ++ entries ∧ Startless entries := by
  refine run_induction ran ⟨down, [], (List.append_nil _).symm, nofun⟩ ?_
  intro before event middle next came happens ih
  obtain ⟨down, entries, journal, startless⟩ := ih
  obtain ⟨down, others, journal', startless'⟩ := down.step (reached.of_run came) happens
  refine ⟨down, entries ++ others, ?_, startless.append startless'⟩
  rw [journal', journal, List.append_assoc]

/-- A trigger that is issued later is refused, and nothing else comes of it. -/
theorem State.Down.refuses_new (down : state.Down) (reached : Reachable setup { shared } state)
    (path : String) :
    Coordinator.run setup state [.trigger path, .step state.nextTask] = some { state with
      nextTask := state.nextTask + 1
      nextTrigger := state.nextTrigger + 1
      journal := state.journal ++ [.refused state.nextTrigger .shutDown] } := by
  let issued : State := { state.spawn (.trigger state.nextTrigger path .start) with
    nextTrigger := state.nextTrigger + 1 }
  have issues : Coordinator.step setup state (.trigger path) = some issued := rfl
  have found : issued.tasks.get? state.nextTask =
      some (.trigger state.nextTrigger path .start) :=
    (reached.numbered.get?_append _ _).trans (if_pos rfl)
  have refused : Coordinator.step setup issued (.step state.nextTask) = _ :=
    (down.step reached issues).1.refuses found
  have tasks : issued.tasks.remove state.nextTask = state.tasks :=
    reached.numbered.remove_append _
  rw [Coordinator.run, List.foldlM_cons, issues, Option.bind_eq_bind, Option.bind_some,
    List.foldlM_cons, refused]
  simp only [endTask, note, tasks]
  rfl

/-- A shutdown that is called later ends at once. -/
theorem step_of_again (closed : state.shutDown = true)
    (reached : Reachable setup { shared } state) :
    step setup (state.spawn (.shutdown .start)) (.step state.nextTask) =
      some { state with nextTask := state.nextTask + 1 } := by
  let called := state.spawn (.shutdown .start)
  have closed : called.shutDown = true := closed
  have found : called.task? state.nextTask = some (.shutdown .start) :=
    (reached.numbered.get?_append _ _).trans (if_pos rfl)
  have tasks : called.tasks.remove state.nextTask = state.tasks :=
    reached.numbered.remove_append _
  rw [step, found, Option.bind_some, State.stepTask, State.stepShutdown, if_pos closed,
    State.endTask, tasks]
  rfl

/-- A shutdown that is called later does nothing. -/
theorem shutDown_again (closed : state.shutDown = true)
    (reached : Reachable setup { shared } state) :
    run setup state [.shutDown, .step state.nextTask] =
      some { state with nextTask := state.nextTask + 1 } := by
  have calls : step setup state .shutDown = some (state.spawn (.shutdown .start)) := rfl
  rw [run, List.foldlM_cons, calls, Option.bind_eq_bind, Option.bind_some, List.foldlM_cons,
    step_of_again closed reached]
  rfl

/-! ### The shutdown itself -/

/-- A shutdown lets the triggers of one pending analysis after the other go. -/
theorem goes_of_cancel {pending : List Pending} (reached : Reachable setup { shared } state)
    (found : state.tasks.get? task = some (.shutdown (.cancel pending))) : ∃ last,
    Goes setup task state last ∧ last.tasks.get? task = some (.shutdown .dispose) ∧
      last.shutDown = state.shutDown ∧ last.slots = state.slots ∧
      last.journal = state.journal ++ pending.map fun pending => .letGo pending.waiters := by
  induction pending generalizing state with
  | nil =>
    have happens : step setup state (.step task) =
        some (state.become task (.shutdown .dispose)) := by
      rw [step, State.task?, found]
      rfl
    exact ⟨_, .single happens, State.get?_become found _, rfl, rfl, (List.append_nil _).symm⟩
  | cons first others ih =>
    let middle := (state.cancelTimer first.timer).note (.letGo first.waiters)
    have happens : step setup state (.step task) =
        some (middle.become task (.shutdown (.cancel others))) := by
      rw [step, State.task?, found]
      rfl
    have known : middle.tasks.get? task = some (.shutdown (.cancel (first :: others))) :=
      reached.timed.get?_cancel found
    obtain ⟨last, goes, waits, closed, slots, journal⟩ :=
      ih (reached.of_step happens) (State.get?_become known _)
    refine ⟨last, .head happens goes, waits, closed, slots, ?_⟩
    rw [journal, List.map_cons, ← List.singleton_append, ← List.append_assoc]
    rfl

/-- What the first shutdown does before it is over. -/
theorem goes_of_first (reached : Reachable setup { shared } state)
    (up : state.shutDown = false) : ∃ last,
    Goes setup state.nextTask (state.spawn (.shutdown .start)) last ∧
      last.tasks.get? state.nextTask = none ∧ last.shutDown = true ∧
      last.slots = state.slots.drain.1 ∧ last.shared.shown = ⟨[], true⟩ ∧
      last.journal = state.journal ++ .drained ::
        state.slots.drain.2.map fun pending => .letGo pending.waiters := by
  let task := state.nextTask
  let called := state.spawn (.shutdown .start)
  let closed := { called with shutDown := true }.become task (.shutdown .drain)
  let drained := ({ closed with slots := closed.slots.drain.1 }.note .drained).become task
    (.shutdown (.cancel closed.slots.drain.2))
  have found : called.tasks.get? task = some (.shutdown .start) :=
    (reached.numbered.get?_append _ _).trans (if_pos rfl)
  have closes : step setup called (.step task) = some closed := by
    have up : called.shutDown = false := up
    rw [step, State.task?, found, Option.bind_some, State.stepTask, State.stepShutdown, up]
    rfl
  have found : closed.tasks.get? task = some (.shutdown .drain) := State.get?_become found _
  have drains : step setup closed (.step task) = some drained := by
    rw [step, State.task?, found]
    rfl
  have found : drained.tasks.get? task = some (.shutdown (.cancel closed.slots.drain.2)) :=
    State.get?_become found _
  have calls : step setup state .shutDown = some called := rfl
  obtain ⟨last, goes, found, shut, slots, journal⟩ :=
    goes_of_cancel (((reached.of_step calls).of_step closes).of_step drains) found
  have disposes : step setup last (.step task) =
      some ({ last with shared := { last.shared with shown := last.shared.shown.dispose } }.endTask
        task) := by
    rw [step, State.task?, found]
    rfl
  refine ⟨_, .head closes (.head drains (goes.tail disposes)), ?_, shut, slots, rfl, ?_⟩
  · rw [State.endTask, Tasks.get?_remove, if_pos rfl]
  · refine journal.trans ?_
    exact List.append_assoc _ _ _

/-! ### Between two turns the coordinator is up or down -/

/-- Whether the coordinator is not shut down, and nobody is about to do so. -/
structure State.Up (state : State) : Prop where
  unclosed : state.shutDown = false
  nobody : ∀ id phase, state.tasks.role? id ≠ some (.shutdown phase)

/-- A coordinator that is up stays up until a shutdown is called. -/
theorem State.Up.step (up : state.Up) (reached : Reachable setup { shared } state)
    (happens : Coordinator.step setup state event = some next) (other : event ≠ .shutDown) :
    next.Up := by
  have numbered := reached.numbered
  have entering {entering : Task} (apart : ∀ phase, entering.role ≠ .shutdown phase)
      (id : Nat) (phase : ShutdownPhase) :
      Tasks.role? (state.tasks ++ [(state.nextTask, entering)]) id ≠ some (.shutdown phase) := by
    rw [numbered.role?_append]
    split
    · exact fun same => apart phase (Option.some.inj same)
    · exact up.nobody id phase
  have move := move_of_step happens
  cases acts : event.actor? with
  | none =>
    cases event with
    | shutDown => exact absurd rfl other
    | step | elapse | reply | breakOff => cases acts
    | trigger | setEnabled =>
      cases happens
      exact ⟨up.unclosed, entering nofun⟩
    | clearAll =>
      cases happens
      exact ⟨up.unclosed, up.nobody⟩
    | clock now =>
      simp only [Coordinator.step] at happens
      split at happens
      · cases happens
        exact ⟨up.unclosed, up.nobody⟩
      · cases happens
  | some own =>
    rw [acts] at move
    have apart {phase : ShutdownPhase} : state.tasks.get? own ≠ some (.shutdown phase) :=
      fun found => up.nobody own phase (Tasks.role?_of_get? found)
    cases move with
    | close found | drain found | cancel found | cancelled found => exact absurd found apart
    | arriveIdle | arriveBusy =>
      refine ⟨up.unclosed, fun id phase role => ?_⟩
      by_cases new : id = state.nextTask
      · rw [new, role?_newcomer numbered] at role
        cases role
      · exact up.nobody id phase (role?_of_arrive numbered new role)
    | _ => exact ⟨up.unclosed, fun id phase role => by grind [up.nobody id phase]⟩

theorem State.Up.goes (up : state.Up) (reached : Reachable setup { shared } state)
    (goes : Goes setup task state next) : next.Up := by
  induction goes with
  | refl => exact up
  | tail before happens ih =>
    have came : Goes setup task state _ := before
    exact ih.step (reached.trans came.reachable) happens nofun

theorem State.CalmBut.up (calm : state.CalmBut none) (unclosed : state.shutDown = false) :
    state.Up := by
  refine ⟨unclosed, fun id phase role => ?_⟩
  obtain ⟨found, member, same⟩ := Option.map_eq_some_iff.mp role
  have ease := calm.ease member
  cases found with
  | shutdown => exact ease.elim
  | _ => cases same

/-- The first shutdown leaves the coordinator down. -/
theorem down_of_first (reached : Reachable setup { shared } state)
    (unclosed : state.shutDown = false)
    (goes : Goes setup state.nextTask (state.spawn (.shutdown .start)) next)
    (parked : next.Parked setup state.nextTask) (calm : next.CalmBut none) : next.Down := by
  obtain ⟨last, course, gone, closed, slots, disposed, _⟩ :=
    goes_of_first reached unclosed
  have stuck : step setup last (.step state.nextTask) = none := by
    rw [step, State.task?, gone, Option.bind_none]
  obtain rfl := course.unique goes stuck parked.stuck
  refine ⟨closed, fun root => ?_, ?_, disposed⟩
  · rw [slots, Slots.get_drain]
  · intro task id path phase found
    exact calm.ease found

/-- A turn leaves the coordinator down if it is shut down afterwards. -/
theorem Turn.down (turn : Turn setup state next) (threaded : Threaded setup { shared } state)
    (down : state.shutDown = true → state.Down) (closed : next.shutDown = true) : next.Down := by
  have reached := threaded.reachable
  have calm := turn.calm reached threaded.calm
  have no (up : next.Up) : next.Down := by
    cases closed.symm.trans up.unclosed
  cases was : state.shutDown with
  | true =>
    obtain ⟨events, ran⟩ := turn.reachable
    exact ((down was).run reached ran).1
  | false =>
    have up := threaded.calm.up was
    cases turn with
    | sudden sudden happens =>
      refine no (up.step reached happens ?_)
      rintro rfl
      exact sudden
    | poll goes => exact no (up.goes reached goes)
    | collapse goes breaks unwinds =>
      have there := reached.trans goes.reachable
      have up := (up.goes reached goes).step there breaks nofun
      exact no (up.goes (there.of_step breaks) unwinds)
    | @call called _ event calls happens goes parked =>
      cases event with
      | shutDown =>
        cases happens
        exact down_of_first reached was goes parked calm
      | setEnabled =>
        exact no ((up.step reached happens nofun).goes (reached.of_step happens) goes)
      | trigger | clearAll | step | elapse | reply | breakOff | clock => exact calls.elim

/-- Between two turns a coordinator that is shut down is down. -/
theorem Threaded.down (threaded : Threaded setup { shared } state) :
    state.shutDown = true → state.Down := by
  induction threaded with
  | refl => exact nofun
  | tail before turn ih => exact turn.down before ih

/-- A shutdown that is called between two turns comes to its end, and lets the triggers of all
pending analyses go. -/
theorem Threaded.goes_of_call (threaded : Threaded setup { shared } state) : ∃ down,
    Goes setup state.nextTask (state.spawn (.shutdown .start)) down ∧
      down.task? state.nextTask = none ∧ down.shutDown = true ∧
      ∃ entries, down.journal = state.journal ++ entries ∧ Startless entries ∧
        ∀ root pending, (state.slots.get root).pending = some pending →
          .letGo pending.waiters ∈ entries := by
  have reached := threaded.reachable
  cases closed : state.shutDown with
  | true =>
    refine ⟨_, .single (step_of_again closed reached), reached.numbered.get?_next, closed, [],
      (List.append_nil _).symm, nofun, fun root pending waits => ?_⟩
    rw [(threaded.down closed).drained] at waits
    cases waits
  | false =>
    obtain ⟨down, goes, gone, shut, _, _, journal⟩ := goes_of_first reached closed
    refine ⟨down, goes, gone, shut, _, journal, ?_, fun root pending waits => ?_⟩
    · intro root task waiters member
      rcases List.mem_cons.mp member with same | member
      · cases same
      · obtain ⟨_, _, same⟩ := List.mem_map.mp member
        cases same
    · exact List.mem_cons_of_mem _ (List.mem_map_of_mem (Slots.mem_drain waits))

/-- A task that others leave alone is where it was after a shutdown was called. -/
theorem Reachable.drive_kept_call (reached : Reachable setup { shared } state) {steps : Nat}
    (ran : Coordinator.run setup state
      (.shutDown :: List.replicate steps (.step state.nextTask)) = some last)
    {root : String} {waiters : List Nat} {phase : DrivePhase}
    (found : state.tasks.get? task = some (.drive root waiters phase)) :
    last.tasks.get? task = some (.drive root waiters phase) := by
  refine reached.drive_kept_run found ?_ ran
  intro event member own
  rcases List.mem_cons.mp member with rfl | member
  · cases own
  · rw [List.eq_of_mem_replicate member] at own
    exact Nat.ne_of_lt (reached.numbered.get?_lt found) (Option.some.inj own).symm

/-! ### The analyses under way -/

section
variable {root : String} {waiters : List Nat} {analysis : Analysis} {outcome : Outcome}

open State in
/-- Once an analysis has ended, the work on its root is over with the same turn. -/
theorem State.Down.goes_of_ended (down : state.Down)
    (found : state.tasks.get? task = some (.drive root waiters (.analyze (.ended outcome)))) :
    ∃ next, Goes setup task state next ∧ next.Parked setup task := by
  let landed := (state.note (.ended root task outcome)).become task
    (.drive root waiters (.answer outcome))
  let told := (landed.note (.answered root task waiters outcome)).become task
    (.drive root [] .settle)
  have lands : Coordinator.step setup state (.step task) = some landed := by
    rw [Coordinator.step, task?, found]
    rfl
  have found : landed.tasks.get? task = some (.drive root waiters (.answer outcome)) :=
    get?_become found _
  have delivers : Coordinator.step setup landed (.step task) = some told := by
    rw [Coordinator.step, task?, found]
    rfl
  have found : told.tasks.get? task = some (.drive root [] .settle) := get?_become found _
  have drained : (told.slots.get root).pending = none := down.drained root
  have idle : told.slots.finish root told.shutDown =
      (told.slots.set root { told.slots.get root with running := false }, none) :=
    Slots.finish_of_unripe (by simp [drained])
  have rests : Coordinator.step setup told (.step task) =
      some (State.endTask task { told with
        slots := told.slots.set root { told.slots.get root with running := false } }) := by
    simp only [Coordinator.step, task?, found, Option.bind_some, stepTask, stepDrive, idle]
  refine ⟨_, .head lands (.head delivers (.single rests)), fun other member => ?_⟩
  rw [endTask, Tasks.get?_remove, if_pos rfl] at member
  cases member

open State in
/-- A turn of an analysis comes to its end if no other task holds the lock on publishing. -/
theorem State.Down.goes (down : state.Down) (reached : Reachable setup { shared } state)
    (free : shared.publisher = none) (alone : ∀ id, id ≠ task → state.hold? id = none)
    (found : state.tasks.get? task = some (.drive root waiters (.analyze analysis))) :
    ∃ next, Goes setup task state next ∧ next.Parked setup task := by
  induction far : analysis.rank using WellFoundedLT.induction generalizing state analysis with
  | ind rank ih =>
    by_cases ended : ∃ outcome, analysis = .ended outcome
    · obtain ⟨outcome, rfl⟩ := ended
      exact down.goes_of_ended found
    have unended (outcome : Outcome) : analysis ≠ .ended outcome :=
      fun equal => ended ⟨outcome, equal⟩
    rcases Analysis.step_or_waits setup.analysis root task state.shared unended with
      ⟨later, after, acts⟩ | waits | ⟨⟨findings, rfl⟩, held⟩
    · have happens : Coordinator.step setup state (.step task) = some
          ({ state with shared := after }.become task (.drive root waiters (.analyze later))) := by
        simp only [Coordinator.step, task?, found, Option.bind_some, stepTask,
          stepDrive_analyze unended, acts, Option.map_some]
      have nearer := Analysis.rank_lt_of_step (reached.regular _ _ _ _ found) acts
      rw [far] at nearer
      obtain ⟨next, goes, parked⟩ := ih _ nearer (down.step reached happens).1
        (reached.of_step happens)
        (fun id other => ((move_of_step happens).hold?_other reached.timed reached.numbered
          other).trans (alone id other))
        (get?_become found _) rfl
      exact ⟨next, .head happens goes, parked⟩
    · refine ⟨state, .refl, fun other member => ?_⟩
      cases found.symm.trans member
      exact Or.inr waits
    · -- Whoever holds the lock would be another task.
      obtain ⟨holder, held⟩ := Option.ne_none_iff_exists'.mp held
      have holds := (reached.owned free holder).mp held
      by_cases own : holder = task
      · rw [own, State.hold?_of_get? found] at holds
        exact absurd rfl holds
      · exact absurd (alone holder own) holds

/-- Between two turns, an analysis under way waits for a command that can have any reply, or has a
turn that comes to its end. -/
theorem Threaded.goes_on (threaded : Threaded setup { shared } state)
    (free : shared.publisher = none) (down : state.Down) {phase : DrivePhase}
    (found : state.tasks.get? task = some (.drive root waiters phase)) :
    (∀ reply volume, ∃ next, step setup state (.reply task reply volume) = some next) ∨
    ∃ first next, step setup state (.step task) = some first ∧ Goes setup task first next ∧
      next.Parked setup task := by
  have reached := threaded.reachable
  obtain ⟨analysis, rfl, _⟩ := threaded.calm.ease found
  have alone := (reached.owned free).none_of_free (threaded.free free)
  obtain ⟨next, goes, parked⟩ := down.goes reached free (fun id _ => alone id) found
  rcases goes.cases_head with rfl | ⟨first, happens, goes⟩
  · left
    intro reply volume
    have waits : (analysis.command? setup.analysis root state.shared).isSome :=
      (parked _ found).resolve_left nofun
    simp only [step, State.task?, found, waits, if_true]
    exact ⟨_, rfl⟩
  · exact Or.inr ⟨first, next, happens, goes, parked⟩

end

/-- On a single thread, a shutdown that is called between two turns comes to its end, and what
follows is this, even if from then on the steps of tasks mix as they like. The triggers of all
pending analyses have been answered that they are cancelled. No analysis starts any more and nothing
is shown. The triggers of an analysis that has started by then, which it has as soon as its root
counts as being analyzed, are answered in the end, with its outcome unless it breaks off; and on a
single thread nothing keeps it waiting but its commands, and each of its turns comes to an end. A
trigger that is issued or makes its first step is refused and changes nothing else, and neither does
another shutdown. -/
theorem shutdown_for_good (threaded : Threaded setup { shared } state)
    (free : shared.publisher = none) : ∃ steps down,
    run setup state (.shutDown :: List.replicate steps (.step state.nextTask)) = some down ∧
    down.task? state.nextTask = none ∧
    (∀ root pending, (state.slots.get root).pending = some pending →
      ∀ waiter ∈ pending.waiters, (waiter, .cancelled) ∈ down.answers) ∧
    (∀ task root waiters phase, state.tasks.get? task = some (.drive root waiters phase) →
      Inevitable setup task (Told waiters) down ∧
      ∀ events final, run setup down events = some final →
        ∀ waiter ∈ waiters, ∀ outcome, (waiter, outcome) ∈ final.answers →
          Occurs setup down (Lands task root waiters outcome) events ∨
            outcome = .cancelled ∧ Occurs setup down (BreaksOff task root waiters) events) ∧
    (∀ later, Threaded setup down later → ∀ task root waiters phase,
      later.tasks.get? task = some (.drive root waiters phase) →
      (∀ reply volume, ∃ next, step setup later (.reply task reply volume) = some next) ∨
      ∃ first next, step setup later (.step task) = some first ∧ Goes setup task first next ∧
        next.Parked setup task) ∧
    ∀ events final, run setup down events = some final →
      (∃ entries, final.journal = state.journal ++ entries ∧
        ∀ root task waiters, .started root task waiters ∉ entries) ∧
      final.shared.shown.files = [] ∧
      (∀ path, run setup final [.trigger path, .step final.nextTask] = some { final with
        nextTask := final.nextTask + 1
        nextTrigger := final.nextTrigger + 1
        journal := final.journal ++ [.refused final.nextTrigger .shutDown] }) ∧
      (∀ task id path phase, final.tasks.get? task = some (.trigger id path phase) →
        step setup final (.step task) =
          some ((final.note (.refused id .shutDown)).endTask task)) ∧
      run setup final [.shutDown, .step final.nextTask] =
        some { final with nextTask := final.nextTask + 1 } := by
  have reached := threaded.reachable
  have calls : step setup state .shutDown = some (state.spawn (.shutdown .start)) := rfl
  obtain ⟨down, goes, gone, shut, entries, journal, startless, letGo⟩ := threaded.goes_of_call
  obtain ⟨steps, course⟩ := goes.exists_replicate
  have ran : run setup state (.shutDown :: List.replicate steps (.step state.nextTask)) =
      some down := by
    rw [run, List.foldlM_cons, calls]
    exact course
  have parked : down.Parked setup state.nextTask := fun _ found => by cases gone.symm.trans found
  have turn : Turn setup state down := @Turn.call _ _ _ _ .shutDown trivial calls goes parked
  have threaded' : Threaded setup { shared } down := threaded.tail turn
  have reached' := threaded'.reachable
  have isDown := threaded'.down shut
  refine ⟨steps, down, ran, gone, ?_, ?_, ?_, ?_⟩
  · intro root pending waits waiter member
    have noted : .letGo pending.waiters ∈ down.journal := by
      rw [journal]
      exact List.mem_append_right _ (letGo root pending waits)
    exact mem_answers noted (List.mem_map_of_mem member)
  · intro task root waiters phase found
    obtain ⟨analysis, rfl, _⟩ := threaded.calm.ease found
    have found := reached.drive_kept_call ran found
    refine ⟨reached'.inevitable free found, fun events final ran waiter member outcome told => ?_⟩
    exact reached'.ends_of_told found ran member told
  · intro later onward task root waiters phase found
    obtain ⟨events, ran⟩ := onward.reachable
    exact Threaded.goes_on (threaded'.trans onward) free (isDown.run reached' ran).1 found
  · intro events final ran
    obtain ⟨final_down, others, journal', startless'⟩ := isDown.run reached' ran
    have reached := reached'.of_run ran
    refine ⟨⟨entries ++ others, ?_, ?_⟩, ?_, ?_, ?_, ?_⟩
    · rw [journal', journal, List.append_assoc]
    · exact startless.append startless'
    · rw [final_down.disposed]
    · exact final_down.refuses_new reached
    · intro task id path phase found
      exact final_down.refuses found
    · exact shutDown_again final_down.closed reached

/-- A trigger starts an analysis, which goes on until it waits for a command. Another trigger comes
and starts a timer. -/
def midway : List Event :=
  [.trigger "/a"] ++ List.replicate 4 (.step 0) ++ List.replicate 4 (.step 1) ++
    [.trigger "/a"] ++ List.replicate 4 (.step 2)

theorem shutdown_for_good_midway : ∃ state steps down,
    run oneRoot { shared := fresh } midway = some state ∧
    Threaded oneRoot { shared := fresh } state ∧
    (state.slots.get "/a").pending = some ⟨0, some 3, [1]⟩ ∧
    run oneRoot state (.shutDown :: List.replicate steps (.step state.nextTask)) = some down ∧
    (1, .cancelled) ∈ down.answers ∧ Inevitable oneRoot 1 (Told [0]) down := by
  have issues (state : State) : ∃ next, step oneRoot state (.trigger "/a") = some next ∧
      Turn oneRoot state next := ⟨_, rfl, @Turn.sudden _ _ _ (.trigger "/a") trivial rfl⟩
  have start : run oneRoot { shared := fresh } [] = some { shared := fresh } := rfl
  obtain ⟨issued, happens, turn⟩ := issues { shared := fresh }
  obtain ⟨begun, came, threaded⟩ := Threaded.poll (.single turn) (run_snoc start happens)
    (by decide +kernel : (run oneRoot { shared := fresh }
      ([] ++ [.trigger "/a"] ++ List.replicate 4 (.step 0))).map _ = _)
  obtain ⟨waiting, came, threaded⟩ := threaded.poll came
    (by decide +kernel : (run oneRoot { shared := fresh }
      (_ ++ List.replicate 4 (.step 1))).map _ = _)
  obtain ⟨issued, happens, turn⟩ := issues waiting
  obtain ⟨state, came, threaded⟩ := Threaded.poll (threaded.tail turn) (run_snoc came happens)
    (by decide +kernel : (run oneRoot { shared := fresh }
      (_ ++ List.replicate 4 (.step 2))).map _ = _)
  have seen : (run oneRoot { shared := fresh } midway).map
      (fun state => ((state.slots.get "/a").pending, state.tasks.role? 1)) =
        some (some ⟨0, some 3, [1]⟩, some (.drive "/a" [0] .flying)) := by
    decide +kernel
  have came : run oneRoot { shared := fresh } midway = some state := came
  rw [came] at seen
  obtain ⟨waits, role⟩ := Prod.mk.inj (Option.some.inj seen)
  obtain ⟨steps, down, ran, _, cancelled, aloft, _⟩ := shutdown_for_good threaded rfl
  refine ⟨state, steps, down, came, threaded, waits, ran,
    cancelled _ _ waits 1 List.mem_cons_self, ?_⟩
  obtain ⟨found, member, same⟩ := Option.map_eq_some_iff.mp role
  cases found with
  | drive root waiters phase =>
    obtain ⟨rfl, rfl, _⟩ := Role.drive.inj same
    exact (aloft 1 _ _ _ member).1
  | _ => cases same

end StyleMonitor.Coordinator
