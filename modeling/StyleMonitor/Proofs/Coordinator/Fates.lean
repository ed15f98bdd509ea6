import StyleMonitor.Proofs.Coordinator.Answers
import StyleMonitor.Proofs.Coordinator.Effects

/-!
# What becomes of an analysis under way

An analysis under way goes on, ends or breaks off, and its triggers are told accordingly:
`fate_of_run` follows one through a row of events. Along the way it keeps account of a mark that an
analysis can have, and of the moments at which it gets it. If every event of the analysis keeps mark
and moments together, then so does a whole row of events, up to the answer.
-/

namespace StyleMonitor.Coordinator

variable {setup : Setup} {shared : Shared} {start state next : State} {event : Event}
  {events before : List Event} {task : Nat} {root : String} {waiters : List Nat}
  {analysis : Analysis} {outcome : Outcome} {good : State → Prop} {moment : State → Event → Prop}
  {marked : Analysis → Prop}

/-- The work on a root serves one trigger at least, until its triggers are answered. -/
theorem Reachable.manned (reached : Reachable setup { shared } state) :
    ∀ task root waiters leg, state.tasks.role? task = some (.drive root waiters leg) →
      leg ≠ .settling → waiters ≠ [] := by
  refine reached.induction nofun ?_
  intro state next actor reached _ h move task root waiters leg found unsettled
  have numbered := reached.numbered
  cases move with
  | share => exact h task root waiters leg found unsettled
  | arriveIdle =>
    by_cases new : task = state.nextTask
    · rw [new, role?_newcomer numbered] at found
      cases found
      exact List.append_ne_nil_of_right_ne_nil _ (List.cons_ne_nil _ _)
    · exact h task root waiters leg (role?_of_arrive numbered new found) unsettled
  | arriveBusy =>
    by_cases new : task = state.nextTask
    · rw [new, role?_newcomer numbered] at found
      cases found
    · exact h task root waiters leg (role?_of_arrive numbered new found) unsettled
  | launch _ waits | again _ waits =>
    have some := reached.nonempty _ _ waits
    grind
  | cancel cancels =>
    rw [Tasks.role?_update, Tasks.role?_of_get? (reached.timed.get?_cancel cancels)] at found
    split at found
    · cases found
    · exact h task root waiters leg (Tasks.role?_of_cancelTimer found) unsettled
  | _ => grind

/-- An event that is not the own one of the work on a root leaves it where it is. -/
theorem Reachable.drive_kept (reached : Reachable setup { shared } state)
    (happens : step setup state event = some next) {phase : DrivePhase}
    (found : state.tasks.get? task = some (.drive root waiters phase))
    (other : event.actor? ≠ some task) :
    next.tasks.get? task = some (.drive root waiters phase) :=
  reached.timed.get?_kept reached.numbered found nofun (move_of_step happens) other

/-! ### Moments and marks -/

/-- The moment at which the end of an analysis is noted. -/
def Lands (task : Nat) (root : String) (waiters : List Nat) (outcome : Outcome) (state : State)
    (event : Event) : Prop :=
  event = .step task ∧
    state.tasks.get? task = some (.drive root waiters (.analyze (.ended outcome)))

/-- The moment at which an analysis breaks off. -/
def BreaksOff (task : Nat) (root : String) (waiters : List Nat) (state : State) (event : Event) :
    Prop :=
  event = .breakOff task ∧
    ∃ analysis, state.tasks.get? task = some (.drive root waiters (.analyze analysis))

/-- An analysis under way gets a mark at certain moments of its own, and at no others. The states
are all `good`. -/
structure Marks (setup : Setup) (task : Nat) (root : String) (waiters : List Nat)
    (good : State → Prop) (moment : State → Event → Prop) (marked : Analysis → Prop) : Prop where
  own : ∀ {state event}, moment state event → event.actor? = some task ∧
    event ≠ .breakOff task ∧ ∃ analysis, (∀ outcome, analysis ≠ .ended outcome) ∧
      state.tasks.get? task = some (.drive root waiters (.analyze analysis))
  turn : ∀ {state analysis later after}, good state →
    state.tasks.get? task = some (.drive root waiters (.analyze analysis)) →
    analysis.step setup.analysis root task state.shared = some (later, after) →
    (marked later ↔ marked analysis ∨ moment state (.step task))
  reply : ∀ {state analysis reply volume}, good state →
    state.tasks.get? task = some (.drive root waiters (.analyze analysis)) →
    (analysis.command? setup.analysis root state.shared).isSome →
    (marked (analysis.afterReply setup.analysis root state.shared reply) ↔
      marked analysis ∨ moment state (.reply task reply volume))

/-- There is no such moment unless the analysis is under way and has not ended. -/
theorem Marks.quiet (marks : Marks setup task root waiters good moment marked) {phase : DrivePhase}
    (found : state.tasks.get? task = some (.drive root waiters phase))
    (grounded : ∀ analysis, phase = .analyze analysis → ∃ outcome, analysis = .ended outcome) :
    ¬ moment state event := by
  intro holds
  obtain ⟨_, _, analysis, unended, aloft⟩ := marks.own holds
  rw [found] at aloft
  cases aloft
  obtain ⟨outcome, ended⟩ := grounded analysis rfl
  exact unended outcome ended

/-- There is no such moment once the triggers of the analysis were answered. -/
theorem Marks.quiet_of_told (marks : Marks setup task root waiters good moment marked)
    (reached : Reachable setup { shared } state)
    (answered : ∀ waiter ∈ waiters, (waiter, outcome) ∈ state.answers) : ¬ moment state event := by
  intro holds
  obtain ⟨_, _, analysis, _, aloft⟩ := marks.own holds
  have role := Tasks.role?_of_get? aloft
  -- Whoever is under way has a trigger in hand.
  obtain ⟨waiter, member⟩ := List.exists_mem_of_ne_nil _ (reached.manned _ _ _ _ role nofun)
  exact reached.unanswered role member outcome (answered waiter member)

theorem occurs_snoc_of_quiet (ran : run setup start before = some state)
    (quiet : ¬ moment state event) : Occurs setup start moment before ↔
      Occurs setup start moment (before ++ [event]) := by
  rw [occurs_snoc ran, or_iff_left quiet]

/-! ### The fate of an analysis -/

/-- Where an analysis that was under way is after a row of events. One that broke off had or had not
the mark at that time. -/
inductive Fate (setup : Setup) (start : State) (task : Nat) (root : String) (waiters : List Nat)
    (moment : State → Event → Prop) (marked : Analysis → Prop) (events : List Event)
    (state : State) : Prop where
  | aloft (analysis : Analysis)
    (found : state.tasks.get? task = some (.drive root waiters (.analyze analysis)))
    (mark : marked analysis ↔ Occurs setup start moment events)
  | landed (outcome : Outcome)
    (found : state.tasks.get? task = some (.drive root waiters (.answer outcome)))
    (lands : Occurs setup start (Lands task root waiters outcome) events)
    (mark : marked (.ended outcome) ↔ Occurs setup start moment events)
  | told (outcome : Outcome) (answered : ∀ waiter ∈ waiters, (waiter, outcome) ∈ state.answers)
    (lands : Occurs setup start (Lands task root waiters outcome) events)
    (mark : marked (.ended outcome) ↔ Occurs setup start moment events)
  | broken (phase : DrivePhase) (analysis : Analysis)
    (found : state.tasks.get? task = some (.drive root waiters phase))
    (grounded : phase = .broken ∨ phase = .abandon)
    (breaks : Occurs setup start (BreaksOff task root waiters) events)
    (unended : ∀ outcome, analysis ≠ .ended outcome)
    (mark : marked analysis ↔ Occurs setup start moment events)
  | letGo (analysis : Analysis)
    (answered : ∀ waiter ∈ waiters, (waiter, .cancelled) ∈ state.answers)
    (breaks : Occurs setup start (BreaksOff task root waiters) events)
    (unended : ∀ outcome, analysis ≠ .ended outcome)
    (mark : marked analysis ↔ Occurs setup start moment events)

/-- What an event of its own makes of an analysis under way. -/
theorem Fate.of_stride (marks : Marks setup task root waiters good moment marked)
    (ran : run setup start before = some state) (fine : good state)
    (found : state.tasks.get? task = some (.drive root waiters (.analyze analysis)))
    (mark : marked analysis ↔ Occurs setup start moment before)
    (stride : Stride setup state task root waiters (.analyze analysis) event next) :
    Fate setup start task root waiters moment marked (before ++ [event]) next := by
  cases stride with
  | turn acts =>
    refine .aloft _ (State.get?_become found _) ?_
    rw [occurs_snoc ran, ← mark]
    exact marks.turn fine found acts
  | reply reply volume waits =>
    refine .aloft _ (State.get?_become found _) ?_
    rw [occurs_snoc ran, ← mark]
    exact marks.reply fine found waits
  | breakOff unended =>
    refine .broken .broken analysis (State.get?_become found _) (Or.inl rfl)
      ((occurs_snoc ran).mpr (Or.inr ⟨rfl, analysis, found⟩)) unended ?_
    rw [mark]
    exact occurs_snoc_of_quiet ran fun holds => (marks.own holds).2.1 rfl
  | @land outcome =>
    refine .landed outcome (State.get?_become found _)
      ((occurs_snoc ran).mpr (Or.inr ⟨rfl, found⟩)) ?_
    rw [mark]
    refine occurs_snoc_of_quiet ran (marks.quiet found ?_)
    rintro _ ⟨⟩
    exact ⟨outcome, rfl⟩

theorem Fate.kept (fate : Fate setup start task root waiters moment marked before state)
    (marks : Marks setup task root waiters good moment marked)
    (ran : run setup start before = some state) (reached : Reachable setup { shared } state)
    (happens : step setup state event = some next) (fine : good state) :
    Fate setup start task root waiters moment marked (before ++ [event]) next := by
  have move := move_of_step happens
  have foreign (other : event.actor? ≠ some task) : ¬ moment state event :=
    fun holds => other (marks.own holds).1
  cases fate with
  | aloft analysis found mark =>
    by_cases own : event.actor? = some task
    · exact .of_stride marks ran fine found mark (stride_of_step happens found own)
    · exact .aloft analysis (reached.drive_kept happens found own)
        (mark.trans (occurs_snoc_of_quiet ran (foreign own)))
  | landed outcome found lands mark =>
    have quiet : ¬ moment state event := marks.quiet found nofun
    have mark := mark.trans (occurs_snoc_of_quiet ran quiet)
    by_cases own : event.actor? = some task
    · cases stride_of_step happens found own with
      | deliver =>
        refine .told outcome (fun waiter member => ?_) (lands.append _) mark
        exact mem_answers (List.mem_append_right _ (List.mem_singleton_self _))
          (List.mem_map_of_mem member)
    · exact .landed outcome (reached.drive_kept happens found own) (lands.append _) mark
  | told outcome answered lands mark =>
    exact .told outcome (fun waiter member => move.mem_answers (answered waiter member))
      (lands.append _)
      (mark.trans (occurs_snoc_of_quiet ran (marks.quiet_of_told reached answered)))
  | broken phase analysis found grounded breaks unended mark =>
    have grounded' : ∀ analysis, phase ≠ .analyze analysis := by
      rcases grounded with rfl | rfl <;> exact nofun
    have quiet : ¬ moment state event :=
      marks.quiet found fun _ equal => absurd equal (grounded' _)
    have mark := mark.trans (occurs_snoc_of_quiet ran quiet)
    by_cases own : event.actor? = some task
    · rcases grounded with rfl | rfl
      · cases stride_of_step happens found own with
        | giveUp =>
          exact .broken .abandon analysis (State.get?_become found _) (Or.inr rfl)
            (breaks.append _) unended mark
      · cases stride_of_step happens found own with
        | abandon =>
          refine .letGo analysis (fun waiter member => ?_) (breaks.append _) unended mark
          exact mem_answers (List.mem_append_right _ (List.mem_singleton_self _))
            (List.mem_map_of_mem member)
    · exact .broken phase analysis (reached.drive_kept happens found own) grounded
        (breaks.append _) unended mark
  | letGo analysis answered breaks unended mark =>
    exact .letGo analysis (fun waiter member => move.mem_answers (answered waiter member))
      (breaks.append _) unended
      (mark.trans (occurs_snoc_of_quiet ran (marks.quiet_of_told reached answered)))

/-- What becomes of an analysis that is under way without a mark. -/
theorem fate_of_run (reached : Reachable setup { shared } start)
    (found : start.tasks.get? task = some (.drive root waiters (.analyze analysis)))
    (marks : Marks setup task root waiters good moment marked) (unmarked : ¬ marked analysis)
    (ran : run setup start events = some state) (all : Throughout setup start good events) :
    Fate setup start task root waiters moment marked events state := by
  revert all
  refine run_induction ran ?_ ?_
  · intro _
    exact .aloft analysis found (iff_of_false unmarked not_occurs_nil)
  · intro before event state next ran happens ih all
    obtain ⟨all, fine⟩ := all.of_snoc ran
    exact (ih all).kept marks ran (reached.of_run ran) happens fine

/-- An analysis that is still under way has a mark if there was the moment for it. -/
theorem Fate.of_aloft (fate : Fate setup start task root waiters moment marked events state)
    (reached : Reachable setup { shared } state)
    (found : state.tasks.get? task = some (.drive root waiters (.analyze analysis))) :
    marked analysis ↔ Occurs setup start moment events := by
  have role := Tasks.role?_of_get? found
  obtain ⟨waiter, member⟩ := List.exists_mem_of_ne_nil _ (reached.manned _ _ _ _ role nofun)
  cases fate with
  | aloft _ found' mark =>
    cases found.symm.trans found'
    exact mark
  | landed _ found' => cases found.symm.trans found'
  | broken _ _ found' grounded =>
    cases found.symm.trans found'
    rcases grounded with grounded | grounded <;> cases grounded
  | told outcome answered =>
    exact absurd (answered waiter member) (reached.unanswered role member outcome)
  | letGo _ answered =>
    exact absurd (answered waiter member) (reached.unanswered role member .cancelled)

/-- The triggers of an analysis that was under way are told the outcome with which it ended, or that
it broke off. -/
theorem Fate.of_told (fate : Fate setup start task root waiters moment marked events state)
    (reached : Reachable setup { shared } state) {waiter : Nat} (member : waiter ∈ waiters)
    (told : (waiter, outcome) ∈ state.answers) :
    (Occurs setup start (Lands task root waiters outcome) events ∧
      (marked (.ended outcome) ↔ Occurs setup start moment events)) ∨
    (outcome = .cancelled ∧ Occurs setup start (BreaksOff task root waiters) events ∧
      ∃ analysis, (∀ outcome, analysis ≠ .ended outcome) ∧
        (marked analysis ↔ Occurs setup start moment events)) := by
  cases fate with
  | aloft _ found | landed _ found | broken _ _ found =>
    exact absurd told (reached.unanswered (Tasks.role?_of_get? found) member outcome)
  | told other answered lands mark =>
    cases reached.answers_inj told (answered waiter member)
    exact Or.inl ⟨lands, mark⟩
  | letGo analysis answered breaks unended mark =>
    exact Or.inr ⟨reached.answers_inj told (answered waiter member), breaks, analysis, unended,
      mark⟩

/-- The triggers of an analysis under way are told the outcome with which it ends, unless it breaks
off. -/
theorem Reachable.ends_of_told (reached : Reachable setup { shared } start)
    (found : start.tasks.get? task = some (.drive root waiters (.analyze analysis)))
    (ran : run setup start events = some state) {waiter : Nat} (member : waiter ∈ waiters)
    (told : (waiter, outcome) ∈ state.answers) :
    Occurs setup start (Lands task root waiters outcome) events ∨
      outcome = .cancelled ∧ Occurs setup start (BreaksOff task root waiters) events := by
  -- No account of a mark is to be kept here.
  have unmarked : Marks setup task root waiters (fun _ => True) (fun _ _ => False)
      (fun _ => False) :=
    ⟨False.elim, fun _ _ _ => or_self_iff.symm, fun _ _ _ => or_self_iff.symm⟩
  have fate := fate_of_run reached found unmarked id ran fun _ _ _ _ _ => trivial
  rcases fate.of_told (reached.of_run ran) member told with ⟨lands, _⟩ | ⟨cancelled, breaks, _⟩
  · exact Or.inl lands
  · exact Or.inr ⟨cancelled, breaks⟩

end StyleMonitor.Coordinator
