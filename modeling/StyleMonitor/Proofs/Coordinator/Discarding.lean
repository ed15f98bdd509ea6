import StyleMonitor.Proofs.Coordinator.Fates
import StyleMonitor.Proofs.Coordinator.Publishing

/-!
# Analyses under way when analyses are disabled

An analysis looks at the flag once more with the lock on publishing held, and at nothing else. So
one that was under way when analyses were disabled shows nothing and does not complete, unless
analyses were enabled again by the time it looks. Then it publishes and completes as if nothing had
happened.
-/

namespace StyleMonitor

namespace Analysis

variable {setup : AnalysisSetup} {root : String} {task : Nat} {analysis later : Analysis}
  {shared after : Shared}

/-- Whether it is certain that an analysis completes. -/
def Completes (analysis : Analysis) : Prop :=
  ∃ total, analysis.verdict? = some (.completed total)

theorem not_completes_ofStage (stage : Container.Stage) : ¬ (ofStage stage).Completes := by
  unfold ofStage
  split <;> rintro ⟨total, certain⟩ <;> cases certain

theorem completes_ended (outcome : Outcome) :
    (ended outcome).Completes ↔ outcome.isCompleted = true := by
  cases outcome <;> simp [Completes, verdict?, Outcome.isCompleted]

/-- An analysis is certain to complete from the moment on at which it finds analyses enabled with
the lock held. -/
theorem completes_of_step (acts : analysis.step setup root task shared = some (later, after)) :
    later.Completes ↔
      analysis.Completes ∨ (∃ findings, analysis = .check findings) ∧ shared.enabled = true := by
  by_cases checks : ∃ findings, analysis = .check findings
  · obtain ⟨findings, rfl⟩ := checks
    cases acts
    cases on : shared.enabled <;> simp [Completes, verdict?]
  · rw [or_iff_left fun both => checks both.1]
    cases turn_of_step acts with
    | publish | drop => exact absurd ⟨_, rfl⟩ checks
    | advance => exact iff_of_false (not_completes_ofStage _) nofun
    | skip | enter | clear | read | unreadable | acquire | exhibit | complete | release | notify
    | hush | fail => simp [Completes, verdict?]

/-- An analysis that is not certain to complete adds nothing to what is shown. -/
theorem Turn.shown_sublist (turn : Turn root task analysis shared later after)
    (uncertain : ¬ analysis.Completes) : after.shown.files.Sublist shared.shown.files := by
  cases turn with
  | clear => exact List.filter_sublist
  | exhibit => exact absurd ⟨_, rfl⟩ uncertain
  | _ => exact List.Sublist.refl _

end Analysis

namespace Coordinator

variable {setup : Setup} {shared : Shared} {start state off next final : State} {event : Event}
  {events : List Event} {toggle task : Nat} {root : String} {waiters : List Nat}
  {analysis : Analysis}

/-- The moment at which analyses are enabled. -/
def Enables (state : State) (event : Event) : Prop :=
  ∃ toggle, event = .step toggle ∧ state.tasks.get? toggle = some (.toggle true .swap)

/-- The moment at which an analysis finds analyses enabled, with the lock on publishing held. -/
def Admits (task : Nat) (root : String) (waiters : List Nat) (state : State) (event : Event) :
    Prop :=
  event = .step task ∧ state.shared.enabled = true ∧
    ∃ findings, state.tasks.get? task = some (.drive root waiters (.analyze (.check findings)))

/-- Analyses that are enabled after they were not have been enabled in between. -/
theorem enables_of_run (disabled : start.shared.enabled = false)
    (ran : run setup start events = some state) (enabled : state.shared.enabled = true) :
    Occurs setup start Enables events := by
  revert enabled
  refine run_induction ran ?_ ?_
  · intro enabled
    rw [disabled] at enabled
    cases enabled
  · intro before event middle next ran happens ih enabled
    have kept (same : next.shared.enabled = middle.shared.enabled) :
        Occurs setup start Enables (before ++ [event]) :=
      (ih (same.symm.trans enabled)).append _
    have effect := effect_of_step happens
    generalize next.shared = after at effect enabled kept
    cases effect with
    | swap found =>
      cases enabled
      exact (occurs_snoc ran).mpr (Or.inr ⟨_, rfl, found⟩)
    | turn found acts => exact kept (Analysis.turn_of_step acts).enabled_eq
    | breakOff =>
      refine kept ?_
      rw [Shared.releaseBy]
      split <;> rfl
    | idle | clearAll | clock | reply | acquire | wipe | release | dispose => exact kept rfl

/-- An analysis becomes certain to complete when it is admitted. -/
theorem marks_admits : Marks setup task root waiters (fun _ => True) (Admits task root waiters)
    Analysis.Completes where
  own holds := by
    obtain ⟨rfl, _, findings, found⟩ := holds
    exact ⟨rfl, nofun, .check findings, nofun, found⟩
  turn _ found acts := by
    rw [Analysis.completes_of_step acts]
    simp [Admits, found, and_comm]
  reply := by
    intro state analysis reply volume _ found waits
    have grounded : ¬ Admits task root waiters state (.reply task reply volume) := by
      rintro ⟨equal, _⟩
      cases equal
    obtain ⟨stage, rfl⟩ := Analysis.exists_stage_of_command waits
    rw [or_iff_left grounded]
    exact iff_of_false (Analysis.not_completes_ofStage _) (fun ⟨_, certain⟩ => nomatch certain)

/-- An analysis that is under way while a toggle has the lock on publishing is not certain to
complete. -/
theorem Owned.not_completes (owned : Owned state.hold? state.shared) {value : Bool}
    {phase : TogglePhase} (toggles : state.tasks.get? toggle = some (.toggle value phase))
    (holds : Task.hold? (.toggle value phase) ≠ none)
    (flies : state.tasks.get? task = some (.drive root waiters (.analyze analysis)))
    (unended : ∀ outcome, analysis ≠ .ended outcome) : ¬ analysis.Completes := by
  have apart : task ≠ toggle := by
    rintro rfl
    cases flies.symm.trans toggles
  rw [← State.hold?_of_get? toggles] at holds
  have free := owned.alone holds apart
  rw [State.hold?_of_get? flies] at free
  rintro ⟨total, certain⟩
  cases analysis with
  | publish | release => cases free
  | ended outcome => exact unended outcome rfl
  | _ => cases certain

/-- An analysis that was not admitted adds nothing to what is shown. -/
theorem Fate.shown_sublist
    (fate : Fate setup start task root waiters (Admits task root waiters) Analysis.Completes events
      state) (reached : Reachable setup { shared } state)
    (flies : state.tasks.get? task = some (.drive root waiters (.analyze analysis)))
    (happens : step setup state event = some next) (own : event.actor? = some task)
    (barred : ¬ Occurs setup start (Admits task root waiters) events) :
    next.shared.shown.files.Sublist state.shared.shown.files := by
  have uncertain : ¬ analysis.Completes := fun completes =>
    barred ((fate.of_aloft reached flies).mp completes)
  cases stride_of_step happens flies own with
  | turn acts => exact (Analysis.turn_of_step acts).shown_sublist uncertain
  | reply | land => exact List.Sublist.refl _
  | breakOff =>
    change (state.shared.releaseBy task).shown.files.Sublist state.shared.shown.files
    rw [Shared.releaseBy]
    split <;> exact List.Sublist.refl _

/-- When analyses are disabled in a state that can come about, an analysis that is under way and has
not ended adds nothing to what is shown from then on, unless it finds analyses enabled again while
it holds the lock on publishing. Its triggers are told that it completed in that case, and in no
other; and analyses were enabled once more before. -/
theorem discarded_unless_admitted (reached : Reachable setup { shared } state)
    (free : shared.publisher = none)
    (disables : state.tasks.get? toggle = some (.toggle false .swap))
    (happens : step setup state (.step toggle) = some off)
    (flies : off.tasks.get? task = some (.drive root waiters (.analyze analysis)))
    (unended : ∀ outcome, analysis ≠ .ended outcome) (ran : run setup off events = some final) :
    (∀ later event next, final.tasks.get? task = some (.drive root waiters (.analyze later)) →
      event.actor? = some task → step setup final event = some next →
      ¬ Occurs setup off (Admits task root waiters) events →
        next.shared.shown.files.Sublist final.shared.shown.files) ∧
    (∀ waiter ∈ waiters, ∀ outcome, (waiter, outcome) ∈ final.answers → outcome = .cancelled ∨
      (outcome.isCompleted = true ↔ Occurs setup off (Admits task root waiters) events)) ∧
    (Occurs setup off (Admits task root waiters) events → Occurs setup off Enables events) := by
  have reached' : Reachable setup { shared } off := reached.of_step happens
  have swapped : ∃ phase, off.tasks.get? toggle = some (.toggle false phase) ∧
      Task.hold? (.toggle false phase) ≠ none ∧ off.shared.enabled = false := by
    simp only [step, State.task?, disables, Option.bind_some, State.stepTask,
      State.stepToggle] at happens
    cases happens
    refine ⟨_, State.get?_become disables _, ?_, rfl⟩
    split <;> simp [Task.hold?]
  obtain ⟨phase, toggles, holds, disabled⟩ := swapped
  have uncertain := (reached'.owned free).not_completes toggles holds flies unended
  have fate := fate_of_run reached' flies marks_admits uncertain ran fun _ _ _ _ _ => trivial
  refine ⟨?_, ?_, ?_⟩
  · intro later event next flies own happens barred
    exact fate.shown_sublist (reached'.of_run ran) flies happens own barred
  · intro waiter member outcome told
    rcases fate.of_told (reached'.of_run ran) member told with ⟨_, mark⟩ | ⟨cancelled, _⟩
    · exact Or.inr ((Analysis.completes_ended outcome).symm.trans mark)
    · exact Or.inl cancelled
  · rintro ⟨before, event, after, middle, rfl, came, _, enabled, _⟩
    exact (enables_of_run disabled came enabled).append _

/-- An analysis is about to run the container, and a toggle that is to disable analyses has the lock
on publishing. -/
def underWay : List Event :=
  [.trigger "/a", .step 0, .step 0, .step 0, .step 0, .step 1, .step 1, .setEnabled false, .step 2]

theorem toggle_underWay (came : run oneRoot { shared := fresh } underWay = some state) :
    state.tasks.get? 2 = some (.toggle false .swap) := by
  have found : (run oneRoot { shared := fresh } underWay).map (·.tasks.get? 2) =
      some (some (.toggle false .swap)) := rfl
  rw [came] at found
  exact Option.some.inj found

theorem analysis_underWay (came : run oneRoot { shared := fresh } underWay = some state)
    (happens : step oneRoot state (.step 2) = some off) :
    off.tasks.get? 1 = some (.drive "/a" [0] (.analyze (.container .prepare))) ∧
      off.shared.shown.files = [] := by
  have found : (run oneRoot { shared := fresh } (underWay ++ [.step 2])).map
      (fun off => (off.tasks.get? 1, off.shared.shown.files)) =
        some (some (.drive "/a" [0] (.analyze (.container .prepare))), []) := rfl
  rw [run_snoc came happens] at found
  exact Prod.mk.inj (Option.some.inj found)

/-- The container leaves a report, and the analysis goes on to its end. -/
def concluding : List Event :=
  [.step 1, .step 1, .reply 1 (.ok {}) reportedFiles, .step 1, .reply 1 (.ok {}) reportedFiles,
    .reply 1 (.ok {}) reportedFiles, .step 1, .step 1, .step 1, .step 1, .step 1, .step 1]

theorem discarded_unless_admitted_concluding : ∃ state off final,
    run oneRoot { shared := fresh } underWay = some state ∧
    step oneRoot state (.step 2) = some off ∧
    run oneRoot off (.step 2 :: .step 2 :: concluding) = some final ∧
    final.answers = [(0, .skipped .disabled)] ∧
    ¬ Occurs oneRoot off (Admits 1 "/a" [0]) (.step 2 :: .step 2 :: concluding) := by
  have ran : (run oneRoot { shared := fresh }
      (underWay ++ .step 2 :: .step 2 :: .step 2 :: concluding)).map State.answers =
        some [(0, .skipped .disabled)] := by
    decide +kernel
  obtain ⟨final, ran, answers⟩ := Option.map_eq_some_iff.mp ran
  obtain ⟨state, off, came, happens, ran⟩ := exists_of_run_append_cons ran
  refine ⟨state, off, final, came, happens, ran, answers, ?_⟩
  have told : (0, .skipped .disabled) ∈ final.answers := by
    rw [answers]
    exact List.mem_cons_self
  obtain ⟨_, completed, _⟩ := discarded_unless_admitted ⟨underWay, came⟩ rfl (toggle_underWay came)
    happens (analysis_underWay came happens).1 nofun ran
  rcases completed 0 List.mem_cons_self _ told with cancelled | mark
  · cases cancelled
  · exact fun admits => nomatch mark.mpr admits

/-- The toggle is over, another one enables analyses again, and the analysis goes on to its end. -/
def readmitting : List Event :=
  [.step 2, .step 2, .setEnabled true, .step 3, .step 3, .step 3] ++ concluding ++
    [.step 1, .step 1]

/-- An analysis that was under way when analyses were disabled shows a finding and completes, since
analyses were enabled again before it was over. -/
theorem not_discarded_readmitting : ∃ state off final,
    run oneRoot { shared := fresh } underWay = some state ∧
    state.tasks.get? 2 = some (.toggle false .swap) ∧
    step oneRoot state (.step 2) = some off ∧
    off.tasks.get? 1 = some (.drive "/a" [0] (.analyze (.container .prepare))) ∧
    run oneRoot off readmitting = some final ∧
    off.shared.shown.files = [] ∧ final.shared.shown.files.map (·.1) = ["/a/x.c"] ∧
    (0, .completed 1) ∈ final.answers := by
  have ran : (run oneRoot { shared := fresh } (underWay ++ .step 2 :: readmitting)).map
      (fun state => (state.shared.shown.files.map (·.1), state.answers)) =
        some (["/a/x.c"], [(0, .completed 1)]) := by
    decide +kernel
  obtain ⟨final, ran, ends⟩ := Option.map_eq_some_iff.mp ran
  obtain ⟨shown, answers⟩ := Prod.mk.inj ends
  obtain ⟨state, off, came, happens, ran⟩ := exists_of_run_append_cons ran
  obtain ⟨flies, empty⟩ := analysis_underWay came happens
  refine ⟨state, off, final, came, toggle_underWay came, happens, flies, ran, empty, shown, ?_⟩
  rw [answers]
  exact List.mem_cons_self

end Coordinator

end StyleMonitor
