import StyleMonitor.Proofs.Coordinator.Answers

/-!
# Triggers that nobody will answer

As long as the coordinator is not shut down, whoever waits for an answer is in the hands of a task
that is to give it. A shutdown takes the pending analyses out once, after it has set its flag, and
from then on the work on a root starts no more pending analyses. A trigger that came past the flag
before it was set can still arrive after that; if its timer elapses while its root is being
analyzed, nobody is left to answer it. Nobody else is forgotten.
-/

namespace StyleMonitor.Coordinator

variable {setup : Setup} {shared : Shared} {state : State} {waiter : Nat}

/-- Whether a trigger is in the hands of a task that is to answer it, or to see to it that another
one does. -/
inductive Attended (state : State) (waiter : Nat) : Prop where
  /-- The work on a root is to answer it. -/
  | served {task : Nat} {root : String} {waiters : List Nat} {leg : Leg}
    (role : state.tasks.role? task = some (.drive root waiters leg)) (member : waiter ∈ waiters)
  /-- It waits at a root that is worked on. -/
  | queued {root spelling : String} {pending : Pending} {task : Nat} {waiters : List Nat}
    {leg : Leg} (waits : (state.slots.get root).pending = some pending)
    (member : waiter ∈ pending.waiters) (same : Path.same spelling root = true)
    (role : state.tasks.role? task = some (.drive spelling waiters leg)) (stays : leg ≠ .leaving)
  /-- It waits for a timer. -/
  | timed {root spelling : String} {pending : Pending} {timer : Nat}
    (waits : (state.slots.get root).pending = some pending) (member : waiter ∈ pending.waiters)
    (held : pending.timer = some timer) (same : Path.same spelling root = true)
    (role : state.tasks.role? timer = some (.timer spelling pending.id))
  /-- A shutdown is to take it out of its slot. -/
  | doomed {root : String} {pending : Pending} {task : Nat}
    (waits : (state.slots.get root).pending = some pending) (member : waiter ∈ pending.waiters)
    (role : state.tasks.role? task = some (.shutdown .drain))
  /-- A shutdown is to let it go. -/
  | released {task : Nat} {drained : List Pending} {pending : Pending}
    (role : state.tasks.role? task = some (.shutdown (.cancel drained)))
    (taken : pending ∈ drained) (member : waiter ∈ pending.waiters)

/-- Whether a trigger waits at an idle root for an analysis whose timer has elapsed, and no
shutdown is to take it out. -/
def Stranded (state : State) (waiter : Nat) : Prop :=
  (∃ root pending, (state.slots.get root).pending = some pending ∧ waiter ∈ pending.waiters ∧
    pending.timer = none ∧ (state.slots.get root).running = false) ∧
  ∀ task, state.tasks.role? task ≠ some (.shutdown .drain)

/-- A trigger that waits at a root is attended to unless it is stranded. -/
theorem Reachable.attended_of_waits (reached : Reachable setup { shared } state)
    (waits : 0 < state.slots.waits waiter) (free : ¬ Stranded state waiter) :
    Attended state waiter := by
  obtain ⟨root, count⟩ := reached.distinct.exists_of_total_pos waits
  have member := List.count_pos_iff.mp count
  cases found : (state.slots.get root).pending with
  | none =>
    rw [Slots.waitersOf, found] at member
    cases member
  | some pending =>
    rw [Slots.waitersOf_of_pending found] at member
    cases held : pending.timer with
    | some timer =>
      obtain ⟨spelling, same, role⟩ := reached.timed.armed root pending timer found held
      exact .timed found member held same role
    | none =>
      cases busy : (state.slots.get root).running with
      | true =>
        obtain ⟨task, spelling, waiters, leg, same, role, stays⟩ := reached.works_of_running busy
        exact .queued found member same role stays
      | false =>
        by_contra left
        refine free ⟨⟨root, pending, found, member, held, busy⟩, ?_⟩
        intro task role
        exact left (.doomed found member role)

theorem Reachable.attended_of_serves (reached : Reachable setup { shared } state)
    (serves : 0 < state.tasks.tally (Role.serves waiter)) : Attended state waiter := by
  obtain ⟨task, old, found, serves⟩ := reached.numbered.exists_of_tally_pos serves
  have role := Tasks.role?_of_get? found
  cases old with
  | drive root waiters phase => exact .served role (List.count_pos_iff.mp serves)
  | _ => cases serves

theorem Reachable.attended_of_releases (reached : Reachable setup { shared } state)
    (releases : 0 < state.tasks.tally (Role.releases waiter)) : Attended state waiter := by
  obtain ⟨task, old, found, releases⟩ := reached.numbered.exists_of_tally_pos releases
  have role := Tasks.role?_of_get? found
  cases old with
  | shutdown phase =>
    cases phase with
    | cancel drained =>
      obtain ⟨pending, taken, member⟩ := List.mem_flatMap.mp (List.count_pos_iff.mp releases)
      exact .released role taken member
    | _ => cases releases
  | _ => cases releases

/-- Whoever waits, waits at one root only. -/
theorem Reachable.waits_inj (reached : Reachable setup { shared } state) {root other : String}
    {first second : Pending} (h : (state.slots.get root).pending = some first)
    (h' : (state.slots.get other).pending = some second) (member : waiter ∈ first.waiters)
    (member' : waiter ∈ second.waiters) : Path.same root other = true := by
  by_contra apart
  have held := reached.held waiter
  unfold Held at held
  have two := Slots.add_le_total (f := fun slot => (Slots.waitersOf slot).count waiter) rfl
    state.slots (Bool.eq_false_iff.mpr apart)
  simp only [Slots.waitersOf_of_pending h, Slots.waitersOf_of_pending h'] at two
  have := List.count_pos_iff.mpr member
  have := List.count_pos_iff.mpr member'
  unfold Slots.waits at held
  split at held <;> omega

/-- A stranded trigger is in nobody's hands. -/
theorem Reachable.not_attended (reached : Reachable setup { shared } state)
    (stranded : Stranded state waiter) : ¬ Attended state waiter := by
  obtain ⟨⟨root, pending, waits, member, ripe, idle⟩, undrained⟩ := stranded
  have held := reached.held waiter
  unfold Held at held
  have here : 0 < state.slots.waits waiter := by
    have le := Slots.le_total (f := fun slot => (Slots.waitersOf slot).count waiter) rfl
      state.slots root
    rw [Slots.waitersOf_of_pending waits] at le
    exact Nat.lt_of_lt_of_le (List.count_pos_iff.mpr member) le
  intro attended
  cases attended with
  | served role held' =>
    have le := Tasks.le_tally role (Role.holds waiter)
    have := List.count_pos_iff.mpr held'
    simp only [Role.holds, Role.afoot, Role.serves, Role.releases] at le
    split at held <;> omega
  | @released _ drained _ role taken member' =>
    have le := Tasks.le_tally role (Role.holds waiter)
    have : 0 < (drained.flatMap (·.waiters)).count waiter :=
      List.count_pos_iff.mpr (List.mem_flatMap.mpr ⟨_, taken, member'⟩)
    simp only [Role.holds, Role.afoot, Role.serves, Role.releases] at le
    split at held <;> omega
  | queued waits' member' same role stays =>
    have home := reached.waits_inj waits waits' member member'
    rw [← Path.same_congr_right home] at same
    have none := reached.grounded idle role
    simp [Role.drives, same, stays] at none
  | timed waits' member' held' same role =>
    have home := reached.waits_inj waits waits' member member'
    rw [Slots.get_congr home, waits'] at waits
    cases waits
    rw [ripe] at held'
    cases held'
  | doomed _ _ role => exact undrained _ role

/-- A trigger that is stranded arrived after the pending analyses had been taken out. -/
theorem Reachable.late_of_stranded (reached : Reachable setup { shared } state) {root : String}
    (arrived : .arrived root waiter ∈ state.journal) (stranded : Stranded state waiter) :
    state.shutDown = true ∧ ∃ before after,
      state.journal = before ++ .drained :: after ∧ .arrived root waiter ∈ after := by
  obtain ⟨⟨home, pending, waits, member, ripe, idle⟩, undrained⟩ := stranded
  have down : state.shutDown = true := by
    rcases reached.ripe home pending waits ripe with busy | down
    · rw [idle] at busy
      cases busy
    · exact down
  refine ⟨down, ?_⟩
  have drained : .drained ∈ state.journal := by
    rcases reached.drains down with ⟨task, role⟩ | drained
    · exact absurd role (undrained task)
    · exact drained
  obtain ⟨before, after, split⟩ := List.append_of_mem drained
  refine ⟨before, after, split, ?_⟩
  -- Nobody waits at a root right after the pending analyses were taken out.
  obtain ⟨ledger, follows, queue, _⟩ := reached.recorded home
  have journal : state.journalOf home =
      before.filter (·.concerns home) ++ .drained :: after.filter (·.concerns home) := by
    rw [State.journalOf, split, List.filter_append]
    rfl
  rw [journal] at follows
  obtain ⟨_, _, follows⟩ := follows.of_append
  obtain ⟨emptied, takes, follows⟩ := follows.of_cons
  cases takes with
  | drained =>
    have queued : waiter ∈ ledger.queue := by
      rw [queue, State.queue, Slots.waitersOf_of_pending waits]
      exact member
    obtain ⟨spelling, later⟩ := follows.arrived_of_mem_queue rfl queued
    have later := (List.mem_filter.mp later).1
    have noted : .arrived spelling waiter ∈ state.journal := by
      rw [split]
      exact List.mem_append_right _ (List.mem_cons_of_mem _ later)
    cases reached.arrived_inj arrived noted
    exact later

/-- In every state that can come about, a trigger that arrived and was not answered is attended to
exactly if it is not stranded, and none is stranded but one that arrived after a shutdown had taken
the pending analyses out. -/
theorem attended_unless_stranded (reached : Reachable setup { shared } state) {root : String}
    (arrived : .arrived root waiter ∈ state.journal)
    (unanswered : ∀ outcome, (waiter, outcome) ∉ state.answers) :
    (Attended state waiter ↔ ¬ Stranded state waiter) ∧
    (Stranded state waiter → state.shutDown = true ∧
      ∃ before after, state.journal = before ++ .drained :: after ∧
        .arrived root waiter ∈ after) := by
  refine ⟨⟨fun attended stranded => reached.not_attended stranded attended, ?_⟩,
    reached.late_of_stranded arrived⟩
  intro free
  have place := reached.one_place arrived
  have silent : (state.answers.map (·.1)).count waiter = 0 := by
    rw [List.count_eq_zero]
    intro told
    obtain ⟨⟨other, outcome⟩, answer, equal⟩ := List.mem_map.mp told
    cases equal
    exact unanswered outcome answer
  rcases Nat.eq_zero_or_pos (state.tasks.tally (Role.serves waiter)) with unserved | serves
  · rcases Nat.eq_zero_or_pos (state.tasks.tally (Role.releases waiter)) with kept | releases
    · exact reached.attended_of_waits (by omega) free
    · exact reached.attended_of_releases releases
  · exact reached.attended_of_serves serves

/-- A trigger comes past the flag of the coordinator, which is then shut down, and arrives while its
root is still analyzed. Its timer elapses before the analysis has ended. Analyses are disabled
meanwhile, so the work ends soon. -/
def lateTrigger : List Event :=
  [.trigger "/a", .step 0, .step 0, .step 0, .step 0,
    .trigger "/a", .step 2, .step 2, .step 2,
    .shutDown, .step 3, .step 3, .step 3, .step 3,
    .step 2, .elapse 4, .step 4, .setEnabled false, .step 5, .step 5, .step 5, .step 5,
    .step 1, .step 1, .step 1, .step 1]

/-- The late trigger is left in the slot of an idle root, with no task to answer it. -/
theorem not_attended_lateTrigger : ∃ state,
    run oneRoot { shared := fresh } lateTrigger = some state ∧
    .arrived "/a" 1 ∈ state.journal ∧ (∀ outcome, (1, outcome) ∉ state.answers) ∧
    state.tasks = [] ∧ state.slots = [("/a", ⟨false, some ⟨0, none, [1]⟩⟩)] ∧
    ¬ Attended state 1 := by
  refine ⟨_, rfl, by decide, ?_, rfl, rfl, ?_⟩
  · intro outcome told
    cases List.mem_singleton.mp told
  · intro attended
    cases attended with
    | served role | queued _ _ _ role | timed _ _ _ _ role | doomed _ _ role | released role =>
      cases role

theorem attended_unless_stranded_lateTrigger : ∃ state,
    run oneRoot { shared := fresh } lateTrigger = some state ∧ ¬ Attended state 1 ∧
    ∃ before after, state.journal = before ++ .drained :: after ∧ .arrived "/a" 1 ∈ after := by
  obtain ⟨state, ran, tasks, slots, journal⟩ : ∃ state,
      run oneRoot { shared := fresh } lateTrigger = some state ∧ state.tasks = [] ∧
      state.slots = [("/a", ⟨false, some ⟨0, none, [1]⟩⟩)] ∧
      state.journal = [.arrived "/a" 0, .started "/a" 1 [0], .drained, .arrived "/a" 1,
        .ended "/a" 1 (.skipped .disabled), .answered "/a" 1 [0] (.skipped .disabled)] :=
    ⟨_, rfl, rfl, rfl, rfl⟩
  have arrived : .arrived "/a" 1 ∈ state.journal := by
    simp [journal]
  have silent : ∀ outcome, (1, outcome) ∉ state.answers := by
    simp [State.answers, journal, Entry.answers]
  have stranded : Stranded state 1 := by
    refine ⟨⟨"/a", ⟨0, none, [1]⟩, ?_, List.mem_singleton_self 1, rfl, ?_⟩, ?_⟩
    · rw [slots]
      rfl
    · rw [slots]
      rfl
    · rw [tasks]
      nofun
  obtain ⟨attended, late⟩ := attended_unless_stranded ⟨lateTrigger, ran⟩ arrived silent
  exact ⟨state, ran, fun held => attended.mp held stranded, (late stranded).2⟩

end StyleMonitor.Coordinator
