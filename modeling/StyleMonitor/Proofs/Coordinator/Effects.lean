import StyleMonitor.Proofs.Analysis.Run
import StyleMonitor.Proofs.Coordinator.Histories

/-!
# What a step does to the work on a root and to what is shared

`Stride` lists what an event of its own makes of the work on a root. `Effect` lists what an event
can do to the state that tasks share: what is shown, whether analyses are enabled, who publishes,
the files and what the user was told. Both are read off the machine once.
-/

namespace StyleMonitor.Coordinator

variable {setup : Setup} {shared : Shared} {state next : State} {event : Event} {task : Nat}
  {root : String} {waiters : List Nat}

theorem State.get?_become {old : Task} (found : state.tasks.get? task = some old) (new : Task) :
    (state.become task new).tasks.get? task = some new := by
  rw [State.become, Tasks.get?_update, if_pos rfl, found, Option.map_some]

/-! ### The work on a root -/

/-- What an event of its own makes of the work on a root. -/
inductive Stride (setup : Setup) (state : State) (task : Nat) (root : String) (waiters : List Nat) :
    DrivePhase → Event → State → Prop where
  /-- The analysis goes on. -/
  | turn {analysis later : Analysis} {after : Shared}
    (acts : analysis.step setup.analysis root task state.shared = some (later, after)) :
    Stride setup state task root waiters (.analyze analysis) (.step task)
      ({ state with shared := after }.become task (.drive root waiters (.analyze later)))
  | reply {analysis : Analysis} (reply : Reply) (volume : Volume)
    (waits : (analysis.command? setup.analysis root state.shared).isSome) :
    Stride setup state task root waiters (.analyze analysis) (.reply task reply volume)
      ({ state with shared := { state.shared with volume } }.become task
        (.drive root waiters
          (.analyze (analysis.afterReply setup.analysis root state.shared reply))))
  | breakOff {analysis : Analysis} (unended : ∀ outcome, analysis ≠ .ended outcome) :
    Stride setup state task root waiters (.analyze analysis) (.breakOff task)
      ({ state with shared := state.shared.releaseBy task }.become task
        (.drive root waiters .broken))
  | land {outcome : Outcome} :
    Stride setup state task root waiters (.analyze (.ended outcome)) (.step task)
      ((state.note (.ended root task outcome)).become task (.drive root waiters (.answer outcome)))
  | deliver {outcome : Outcome} :
    Stride setup state task root waiters (.answer outcome) (.step task)
      ((state.note (.answered root task waiters outcome)).become task (.drive root [] .settle))
  | again {slots : Slots} {others : List Nat}
    (follows : state.slots.finish root state.shutDown = (slots, some others)) :
    Stride setup state task root waiters .settle (.step task)
      (({ state with slots }.note (.started root task others)).become task
        (State.driveFrom root others))
  | rest {slots : Slots} (ends : state.slots.finish root state.shutDown = (slots, none)) :
    Stride setup state task root waiters .settle (.step task) ({ state with slots }.endTask task)
  | giveUp : Stride setup state task root waiters .broken (.step task)
    (({ state with slots := (state.slots.breakOff root).1 }.note
      (.brokenOff root task (state.slots.breakOff root).2)).become task
        (.drive root waiters .abandon))
  | abandon : Stride setup state task root waiters .abandon (.step task)
    ((state.note (.letGo waiters)).endTask task)

open State in
theorem stride_of_stepDrive {phase : DrivePhase}
    (acts : stepDrive setup task root waiters state phase = some next) :
    Stride setup state task root waiters phase (.step task) next := by
  cases phase with
  | analyze analysis =>
    cases analysis with
    | ended outcome =>
      cases acts
      exact .land
    | _ =>
      simp only [stepDrive] at acts
      obtain ⟨⟨later, after⟩, turns, rfl⟩ := Option.map_eq_some_iff.mp acts
      exact .turn turns
  | answer outcome =>
    cases acts
    exact .deliver
  | settle =>
    simp only [stepDrive] at acts
    split at acts
    · next follows =>
      cases acts
      exact .again follows
    · next ends =>
      cases acts
      exact .rest ends
  | broken =>
    cases acts
    exact .giveUp
  | abandon =>
    cases acts
    exact .abandon

open State in
theorem stride_of_step {phase : DrivePhase} (happens : step setup state event = some next)
    (found : state.tasks.get? task = some (.drive root waiters phase))
    (own : event.actor? = some task) : Stride setup state task root waiters phase event next := by
  cases event with
  | trigger | setEnabled | shutDown | clearAll | clock => cases own
  | elapse =>
    cases own
    simp only [step, task?, found] at happens
    cases happens
  | step =>
    cases own
    simp only [step, task?, found, Option.bind_some, stepTask] at happens
    exact stride_of_stepDrive happens
  | reply _ reply volume =>
    cases own
    cases phase with
    | analyze analysis =>
      simp only [step, task?, found] at happens
      split at happens
      · next waits =>
        cases happens
        exact .reply reply volume waits
      · cases happens
    | _ =>
      simp only [step, task?, found] at happens
      cases happens
  | breakOff =>
    cases own
    simp only [step, task?, found] at happens
    cases phase with
    | analyze analysis =>
      cases analysis with
      | ended outcome => cases happens
      | _ =>
        cases happens
        refine .breakOff fun outcome same => ?_
        cases same
    | _ => cases happens

/-- Whoever does the work on a root after a step did it before, or begins with it. -/
theorem Reachable.drive_of_next {phase : DrivePhase} (reached : Reachable setup { shared } state)
    (happens : Coordinator.step setup state event = some next)
    (found : next.tasks.get? task = some (.drive root waiters phase)) :
    (event.actor? ≠ some task ∧ state.tasks.get? task = some (.drive root waiters phase)) ∨
      phase = .analyze .start ∨ ∃ home others earlier, state.tasks.get? task = some (.drive home others earlier) ∧
        Stride setup state task home others earlier event next := by
  have numbered := reached.numbered
  have move := move_of_step happens
  by_cases own : event.actor? = some task
  · obtain ⟨old, known⟩ := exists_of_actor happens own
    cases old with
    | drive home others earlier =>
      exact Or.inr (Or.inr ⟨home, others, earlier, known, stride_of_step happens known own⟩)
    | trigger | timer | toggle | shutdown =>
      rw [own] at move
      cases move with
      | launch known' =>
        rw [Tasks.get?_update, if_pos rfl, known', Option.map_some] at found
        cases found
        exact Or.inr (Or.inl rfl)
      | onward known' new _ same =>
        rw [Tasks.get?_update, if_pos rfl, known', Option.map_some] at found
        cases found
        cases known.symm.trans known'
        cases same
      | arriveIdle | arriveBusy =>
        rw [((numbered.remove _).cancelTimer _).get?_append,
          if_neg (Nat.ne_of_lt (numbered.get?_lt known))] at found
        have found := Tasks.get?_of_cancelTimer found
        rw [Tasks.get?_remove, if_pos rfl] at found
        cases found
      | retire | refuse | ripen | stale =>
        rw [Tasks.get?_remove, if_pos rfl] at found
        cases found
      | close known' | drain known' | cancelled known' =>
        rw [Tasks.get?_update, if_pos rfl, known', Option.map_some] at found
        cases found
      | cancel known' =>
        rw [Tasks.get?_update, if_pos rfl, reached.timed.get?_cancel known', Option.map_some]
          at found
        cases found
      | land known' | deliver known' | again known' | rest known' | giveUp known' | leave known'
      | abandon known' => cases known.symm.trans known'
  · rcases move.get?_known numbered found own with known | newborn
    · exact Or.inl ⟨own, known⟩
    · cases phase with
      | analyze analysis =>
        cases analysis with
        | start => exact Or.inr (Or.inl rfl)
        | _ => cases newborn
      | _ => cases newborn

/-- An analysis under way after a step was so before, or begins, or goes on with its own step or with
the reply to its command. -/
theorem Reachable.analysis_of_next {analysis : Analysis}
    (reached : Reachable setup { shared } state)
    (happens : Coordinator.step setup state event = some next)
    (found : next.tasks.get? task = some (.drive root waiters (.analyze analysis))) :
    state.tasks.get? task = some (.drive root waiters (.analyze analysis)) ∨ analysis = .start ∨
      ∃ earlier, state.tasks.get? task = some (.drive root waiters (.analyze earlier)) ∧
        ((event = .step task ∧ ∃ after,
          earlier.step setup.analysis root task state.shared = some (analysis, after)) ∨
        ∃ reply volume, event = .reply task reply volume ∧
          (earlier.command? setup.analysis root state.shared).isSome ∧
          analysis = earlier.afterReply setup.analysis root state.shared reply) := by
  rcases reached.drive_of_next happens found with
    ⟨-, known⟩ | begins | ⟨home, others, _, known, stride⟩
  · exact Or.inl known
  · cases begins
    exact Or.inr (Or.inl rfl)
  · cases stride with
    | turn acts =>
      cases (State.get?_become known _).symm.trans found
      exact Or.inr (Or.inr ⟨_, known, Or.inl ⟨rfl, _, acts⟩⟩)
    | reply reply volume waits =>
      cases (State.get?_become known _).symm.trans found
      exact Or.inr (Or.inr ⟨_, known, Or.inr ⟨reply, volume, rfl, waits, rfl⟩⟩)
    | again =>
      cases (State.get?_become known _).symm.trans found
      exact Or.inr (Or.inl rfl)
    | breakOff | land | deliver | giveUp => cases (State.get?_become known _).symm.trans found
    | rest | abandon =>
      rw [State.endTask, Tasks.get?_remove, if_pos rfl] at found
      cases found

/-! ### What is shared -/

/-- What an event makes of what is shared. -/
inductive Effect (setup : Setup) (state : State) : Event → Shared → Prop where
  | idle (event : Event) : Effect setup state event state.shared
  | clearAll : Effect setup state .clearAll
    { state.shared with shown := state.shared.shown.clearAll }
  | clock (now : Instant) : Effect setup state (.clock now) { state.shared with clock := now }
  | reply (task : Nat) (reply : Reply) (volume : Volume) :
    Effect setup state (.reply task reply volume) { state.shared with volume }
  | breakOff (task : Nat) : Effect setup state (.breakOff task) (state.shared.releaseBy task)
  /-- An analysis goes on. -/
  | turn {task : Nat} {root : String} {waiters : List Nat} {analysis later : Analysis}
    {after : Shared}
    (found : state.tasks.get? task = some (.drive root waiters (.analyze analysis)))
    (acts : analysis.step setup.analysis root task state.shared = some (later, after)) :
    Effect setup state (.step task) after
  | acquire {task : Nat} {value : Bool}
    (found : state.tasks.get? task = some (.toggle value .acquire)) :
    Effect setup state (.step task) { state.shared with publisher := some task }
  /-- A toggle takes effect. -/
  | swap {task : Nat} {value : Bool} (found : state.tasks.get? task = some (.toggle value .swap)) :
    Effect setup state (.step task) { state.shared with enabled := value }
  | wipe {task : Nat} {value : Bool} (found : state.tasks.get? task = some (.toggle value .clear)) :
    Effect setup state (.step task) { state.shared with shown := state.shared.shown.clearAll }
  | release {task : Nat} {value : Bool}
    (found : state.tasks.get? task = some (.toggle value .release)) :
    Effect setup state (.step task) { state.shared with publisher := none }
  | dispose {task : Nat} (found : state.tasks.get? task = some (.shutdown .dispose)) :
    Effect setup state (.step task) { state.shared with shown := state.shared.shown.dispose }

namespace State

theorem shared_stepTrigger (task id : Nat) (path : String) (phase : TriggerPhase) :
    (stepTrigger setup task id path state phase).shared = state.shared := by
  cases phase with
  | start | asked =>
    simp only [stepTrigger]
    split <;> rfl
  | admitted =>
    simp only [stepTrigger]
    split <;> rfl
  | resolved root =>
    simp only [stepTrigger]
    split <;> rfl

theorem shared_stepTimer (task : Nat) (root : String) (pending : Nat) :
    (stepTimer task root pending state).shared = state.shared := by
  unfold stepTimer
  split <;> rfl

end State

open State in
theorem effect_of_step (happens : step setup state event = some next) :
    Effect setup state event next.shared := by
  cases event with
  | trigger | setEnabled | shutDown =>
    cases happens
    exact .idle _
  | clearAll =>
    cases happens
    exact .clearAll
  | clock now =>
    simp only [step] at happens
    split at happens
    · cases happens
      exact .clock now
    · cases happens
  | step task =>
    obtain ⟨old, found, acts⟩ := Option.bind_eq_some_iff.mp happens
    cases old with
    | trigger id path phase =>
      cases acts
      rw [shared_stepTrigger]
      exact .idle _
    | timer root pending elapsed =>
      cases elapsed with
      | false => cases acts
      | true =>
        cases acts
        rw [shared_stepTimer]
        exact .idle _
    | drive root waiters phase =>
      cases stride_of_step happens found rfl with
      | turn turns => exact .turn found turns
      | land | deliver | again | rest | giveUp | abandon => exact .idle _
    | toggle value phase =>
      cases phase with
      | acquire =>
        simp only [stepTask, stepToggle] at acts
        split at acts
        · cases acts
        · cases acts
          exact .acquire found
      | swap =>
        cases acts
        exact .swap found
      | clear =>
        cases acts
        exact .wipe found
      | release =>
        cases acts
        exact .release found
    | shutdown phase =>
      cases phase with
      | start =>
        simp only [stepTask, stepShutdown] at acts
        split at acts <;> cases acts <;> exact .idle _
      | drain =>
        cases acts
        exact .idle _
      | cancel pending =>
        cases pending <;> cases acts <;> exact .idle _
      | dispose =>
        cases acts
        exact .dispose found
  | elapse task =>
    simp only [step] at happens
    split at happens
    · cases happens
      exact .idle _
    · cases happens
  | reply task reply volume =>
    simp only [step] at happens
    split at happens
    · split at happens
      · cases happens
        exact .reply task reply volume
      · cases happens
    · cases happens
  | breakOff task =>
    simp only [step] at happens
    split at happens
    · cases happens
    · cases happens
      exact .breakOff task
    · cases happens

end StyleMonitor.Coordinator
