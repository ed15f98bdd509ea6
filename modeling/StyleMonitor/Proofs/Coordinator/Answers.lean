import StyleMonitor.Proofs.Coordinator.Records

/-!
# What triggers are answered

Every trigger that arrived is answered at most once, and what it is told about its root is the
outcome of an analysis that started after it had arrived. The triggers of one analysis are
answered together.
-/

namespace StyleMonitor.Coordinator

variable {setup : Setup} {shared : Shared} {state next : State} {actor : Option Nat}

theorem Move.mem_answers (move : Move state actor next) {answer : Nat × Outcome}
    (h : answer ∈ state.answers) : answer ∈ next.answers := by
  obtain ⟨entries, equal⟩ := move.journal_eq
  rw [State.answers, equal, List.flatMap_append]
  exact List.mem_append_left _ h

theorem mem_answers {entry : Entry} (noted : entry ∈ state.journal) {answer : Nat × Outcome}
    (h : answer ∈ entry.answers) : answer ∈ state.answers :=
  List.mem_flatMap.mpr ⟨entry, noted, h⟩

/-- Whether the triggers of an analysis are in the hands of its task. -/
def InHand (state : State) (root : String) (task : Nat) (waiters : List Nat) : Prop :=
  ∃ leg, state.tasks.role? task = some (.drive root waiters leg) ∧ leg ≠ .settling

theorem InHand.of_role {root : String} {task : Nat} {waiters : List Nat} (leg : Leg)
    (role : state.tasks.role? task = some (.drive root waiters leg)) (unsettled : leg ≠ .settling) :
    InHand state root task waiters :=
  ⟨leg, role, unsettled⟩

/-- The triggers of an analysis leave the hands of its task together, answered alike. -/
theorem InHand.kept (reached : Reachable setup { shared } state) (move : Move state actor next)
    {root : String} {task : Nat} {waiters : List Nat} (h : InHand state root task waiters) :
    InHand next root task waiters ∨
      ∃ outcome, ∀ waiter ∈ waiters, (waiter, outcome) ∈ next.answers := by
  obtain ⟨leg, role, unsettled⟩ := h
  obtain ⟨old, works, equal⟩ := Option.map_eq_some_iff.mp role
  cases old with
  | drive home others phase =>
    cases equal
    by_cases mine : actor = some task
    · cases move with
      | share | issue | enter => cases mine
      | retire found _ calm =>
        cases mine
        cases works.symm.trans found
        rcases calm with calm | calm | calm <;> cases calm
      | refuse found | arriveIdle found | arriveBusy found | launch found | ripen found
      | stale found | close found | drain found | cancel found | cancelled found =>
        cases mine
        cases works.symm.trans found
      | onward found new _ same =>
        cases mine
        refine Or.inl (.of_role phase.leg ?_ unsettled)
        rw [Tasks.role?_update_self found, same, ← Tasks.role?_of_get? found, role]
      | @land _ _ _ outcome found =>
        cases mine
        cases works.symm.trans found
        exact Or.inl (.of_role (.landed outcome) (Tasks.role?_update_self found _) nofun)
      | @deliver _ _ _ outcome found =>
        cases mine
        cases works.symm.trans found
        refine Or.inr ⟨outcome, fun waiter member => ?_⟩
        exact mem_answers (List.mem_append_right _ (List.mem_singleton_self _))
          (List.mem_map_of_mem member)
      | again found | rest found =>
        cases mine
        cases works.symm.trans found
        exact absurd rfl unsettled
      | giveUp found | leave found =>
        cases mine
        cases works.symm.trans found
        exact Or.inl (.of_role .leaving (Tasks.role?_update_self found _) nofun)
      | abandon found =>
        cases mine
        cases works.symm.trans found
        refine Or.inr ⟨.cancelled, fun waiter member => ?_⟩
        exact mem_answers (List.mem_append_right _ (List.mem_singleton_self _))
          (List.mem_map_of_mem member)
    · have works := reached.timed.get?_kept reached.numbered works nofun move mine
      exact Or.inl (.of_role _ (Tasks.role?_of_get? works) unsettled)
  | _ => cases equal

/-- The triggers of an analysis that has started are in the hands of its task, or were answered
alike. -/
theorem Reachable.inHand (reached : Reachable setup { shared } state) :
    ∀ root task waiters, .started root task waiters ∈ state.journal →
      InHand state root task waiters ∨
        ∃ outcome, ∀ waiter ∈ waiters, (waiter, outcome) ∈ state.answers := by
  refine reached.induction nofun ?_
  intro state next actor reached _ h move root task waiters started
  have old : .started root task waiters ∈ state.journal → InHand next root task waiters ∨
      ∃ outcome, ∀ waiter ∈ waiters, (waiter, outcome) ∈ next.answers := by
    intro started
    rcases h root task waiters started with held | ⟨outcome, answered⟩
    · exact held.kept reached move
    · exact Or.inr ⟨outcome, fun waiter member => move.mem_answers (answered waiter member)⟩
  cases move with
  | arriveIdle found =>
    rcases List.mem_append.mp started with started | new
    · exact old (by simpa using started)
    · cases List.mem_singleton.mp new
      exact Or.inl (.of_role .flying (role?_newcomer reached.numbered _ _ _) nofun)
  | launch found | again found =>
    rcases List.mem_append.mp started with started | new
    · exact old started
    · cases List.mem_singleton.mp new
      exact Or.inl (.of_role .flying (Tasks.role?_update_self found _) nofun)
  | _ => exact old (by simpa using started)

/-- What a trigger was answered decides what it was answered. -/
theorem Reachable.answers_inj (reached : Reachable setup { shared } state) {waiter : Nat}
    {first second : Outcome} (h : (waiter, first) ∈ state.answers)
    (h' : (waiter, second) ∈ state.answers) : first = second := by
  have nodup := reached.answers_nodup
  exact (Prod.mk.inj (List.inj_on_of_nodup_map nodup h h' rfl)).2

/-- A trigger that arrived did so at one root. -/
theorem Reachable.arrived_inj (reached : Reachable setup { shared } state) {root home : String}
    {waiter : Nat} (h : .arrived root waiter ∈ state.journal)
    (h' : .arrived home waiter ∈ state.journal) : root = home := by
  have issued := reached.issued waiter
  have once : mentions Entry.arrivals state.journal waiter ≤ 1 := by
    split at issued <;> omega
  have same := mentions_inj once h h' (List.mem_singleton_self waiter)
    (List.mem_singleton_self waiter)
  exact (Entry.arrived.inj same).1

/-- A trigger that arrived was not turned away. -/
theorem Reachable.not_refused (reached : Reachable setup { shared } state) {root : String}
    {waiter : Nat} {reason : Skip} (h : .arrived root waiter ∈ state.journal) :
    .refused waiter reason ∉ state.journal := by
  intro refused
  have issued := reached.issued waiter
  have arrivals := mentions_pos Entry.arrivals h (List.mem_singleton_self waiter)
  have refusals := mentions_pos Entry.refusals refused (List.mem_singleton_self waiter)
  split at issued <;> omega

/-- An answer in the journal of a root goes back to an analysis of the root. -/
theorem Reachable.begun (reached : Reachable setup { shared } state) {root home : String}
    {task : Nat} {waiters : List Nat} {outcome : Outcome} {before after : List Entry}
    (equal : state.journalOf root = before ++ .answered home task waiters outcome :: after) :
    Flight.Begun ⟨task, waiters, some outcome⟩ before := by
  obtain ⟨ledger, follows, _⟩ := reached.recorded root
  rw [equal] at follows
  exact follows.begun_of_answered

/-- What a trigger was told that arrived is the outcome of an analysis of its own root that
started after it had arrived, unless the trigger was let go. -/
theorem Reachable.answer_of_arrived (reached : Reachable setup { shared } state) {root : String}
    {waiter : Nat} {outcome : Outcome} (arrived : .arrived root waiter ∈ state.journal)
    (told : (waiter, outcome) ∈ state.answers) : outcome = .cancelled ∨
      ∃ before home task waiters after,
        state.journalOf root = before ++ .answered home task waiters outcome :: after ∧
        waiter ∈ waiters ∧ Flight.Begun ⟨task, waiters, some outcome⟩ before := by
  obtain ⟨entry, noted, answers⟩ := List.mem_flatMap.mp told
  cases entry with
  | arrived | started | ended | drained => cases answers
  | refused other reason =>
    cases List.mem_singleton.mp answers
    exact absurd noted (reached.not_refused arrived)
  | brokenOff | letGo =>
    obtain ⟨_, _, equal⟩ := List.mem_map.mp answers
    cases equal
    exact Or.inl rfl
  | answered home task waiters other =>
    obtain ⟨_, member, equal⟩ := List.mem_map.mp answers
    cases equal
    -- The analysis was of the root where its triggers had arrived.
    have noted' : .answered home task waiters outcome ∈ state.journalOf home :=
      List.mem_filter.mpr ⟨noted, Path.same_refl home⟩
    obtain ⟨before, after, equal⟩ := List.append_of_mem noted'
    obtain ⟨earlier, _, during, rfl, _, _, arrivals⟩ := reached.begun equal
    obtain ⟨spelling, here⟩ := arrivals waiter member
    have here : .arrived spelling waiter ∈ state.journalOf home := by
      rw [equal]
      exact List.mem_append_left _ (List.mem_append_left _ here)
    obtain ⟨here, same⟩ := List.mem_filter.mp here
    cases reached.arrived_inj arrived here
    have noted' : .answered home task waiters outcome ∈ state.journalOf root :=
      List.mem_filter.mpr ⟨noted, (Path.same_comm home root).trans same⟩
    obtain ⟨before, after, equal⟩ := List.append_of_mem noted'
    exact Or.inr ⟨before, home, task, waiters, after, equal, member, reached.begun equal⟩

/-- A trigger in the hands of a task was not answered. -/
theorem Reachable.unanswered (reached : Reachable setup { shared } state) {root : String}
    {task : Nat} {waiters : List Nat} {leg : Leg}
    (role : state.tasks.role? task = some (.drive root waiters leg)) {waiter : Nat}
    (member : waiter ∈ waiters) (outcome : Outcome) : (waiter, outcome) ∉ state.answers := by
  intro told
  have held := reached.held waiter
  unfold Held at held
  have serves := Tasks.le_tally role (Role.holds waiter)
  have inHand : 0 < waiters.count waiter := List.count_pos_iff.mpr member
  have told : 0 < mentions Entry.recipients state.journal waiter := by
    rw [← count_answers]
    exact List.count_pos_iff.mpr (List.mem_map_of_mem told)
  simp only [Role.holds, Role.afoot, Role.serves, Role.releases] at serves
  split at held <;> omega

/-- The triggers of an analysis are answered together, and all alike. -/
theorem Reachable.answered_alike (reached : Reachable setup { shared } state) {root : String}
    {task : Nat} {waiters : List Nat} (started : .started root task waiters ∈ state.journal)
    {first second : Nat} (member : first ∈ waiters) (member' : second ∈ waiters)
    {outcome : Outcome} (told : (first, outcome) ∈ state.answers) :
    (second, outcome) ∈ state.answers := by
  rcases reached.inHand root task waiters started with ⟨leg, role, _⟩ | ⟨other, answered⟩
  · exact absurd told (reached.unanswered role member outcome)
  · rw [reached.answers_inj told (answered first member)]
    exact answered second member'

/-- In every state that can come about, a trigger that arrived is in one place, no trigger was
answered twice, what a trigger was told is the outcome of an analysis of its own root that started
after it had arrived, or that it was let go, and all triggers of one analysis are told the same. -/
theorem every_trigger_served_once (reached : Reachable setup { shared } state) :
    (∀ root waiter, .arrived root waiter ∈ state.journal →
      state.slots.waits waiter + state.tasks.tally (Role.serves waiter) +
        state.tasks.tally (Role.releases waiter) + (state.answers.map (·.1)).count waiter = 1) ∧
    (state.answers.map (·.1)).Nodup ∧
    (∀ root waiter outcome, .arrived root waiter ∈ state.journal →
      (waiter, outcome) ∈ state.answers → outcome = .cancelled ∨
        ∃ before home task waiters after,
          state.journalOf root = before ++ .answered home task waiters outcome :: after ∧
          waiter ∈ waiters ∧ Flight.Begun ⟨task, waiters, some outcome⟩ before) ∧
    (∀ root task waiters, .started root task waiters ∈ state.journal →
      ∀ first ∈ waiters, ∀ second ∈ waiters, ∀ outcome,
        (first, outcome) ∈ state.answers → (second, outcome) ∈ state.answers) :=
  ⟨fun _ _ arrived => reached.one_place arrived, reached.answers_nodup,
    fun _ _ _ arrived told => reached.answer_of_arrived arrived told,
    fun _ _ _ started _ member _ member' _ told =>
      reached.answered_alike started member member' told⟩

/-- Two triggers arrive while a root is analyzed, and share the next analysis. Analyses are
disabled meanwhile, so the work ends soon. -/
def burst : List Event :=
  [.trigger "/a", .step 0, .step 0, .step 0, .step 0,
    .trigger "/a", .step 2, .step 2, .step 2, .step 2,
    .trigger "/a", .step 4, .step 4, .step 4, .step 4,
    .elapse 5, .step 5, .setEnabled false, .step 6, .step 6, .step 6, .step 6,
    .step 1, .step 1, .step 1, .step 1, .step 1, .step 1, .step 1, .step 1]

theorem every_trigger_served_once_burst : ∃ state,
    run oneRoot { shared := fresh } burst = some state ∧
    (2, .skipped .disabled) ∈ state.answers ∧
    ∃ before home task waiters after,
      state.journalOf "/a" = before ++ .answered home task waiters (.skipped .disabled) :: after ∧
      1 ∈ waiters ∧ Flight.Begun ⟨task, waiters, some (.skipped .disabled)⟩ before := by
  have reached : Reachable oneRoot { shared := fresh } _ := ⟨burst, rfl⟩
  obtain ⟨_, _, answer, alike⟩ := every_trigger_served_once reached
  refine ⟨_, rfl, ?_, ?_⟩
  · exact alike "/a" 1 [1, 2] (by decide) 1 (by decide) 2 (by decide) _ (by decide)
  · exact (answer "/a" 1 (.skipped .disabled) (by decide) (by decide)).resolve_left nofun

end StyleMonitor.Coordinator
