import StyleMonitor.Proofs.Coordinator.Answers

/-!
# What a burst of triggers costs

An analysis takes all triggers that wait at its root, and one at least, so there are never more
analyses than triggers. Triggers that arrive while an analysis is under way wait for the next one,
and share it.
-/

namespace StyleMonitor.Coordinator

variable {setup : Setup} {shared : Shared} {state next : State} {actor : Option Nat}

/-! ### The start of an analysis -/

/-- The step that starts an analysis takes all triggers that wait at the root, those that arrive
with it included, and leaves none. Its task takes the analysis up. -/
theorem Move.takes_all (move : Move state actor next) (reached : Reachable setup { shared } state)
    {entries : List Entry} (noted : next.journal = state.journal ++ entries) {root : String}
    {task : Nat} {waiters : List Nat} (starts : .started root task waiters ∈ entries) :
    (next.tasks.role? task = some (.drive root waiters .flying) ∧
      state.tasks.role? task ≠ some (.drive root waiters .flying)) ∧
    waiters = state.queue root ++ entries.flatMap Entry.arrivals ∧ waiters ≠ [] ∧
      next.queue root = [] := by
  have none : ∀ {entry : Entry}, entry.starts = [] → next.journal = state.journal ++ [entry] →
      False := by
    intro entry quiet equal
    rw [equal] at noted
    cases List.append_cancel_left noted
    cases List.mem_singleton.mp starts
    cases quiet
  have idle : next.journal = state.journal → False := by
    intro equal
    rw [equal] at noted
    rw [List.self_eq_append_right.mp noted] at starts
    cases starts
  cases move with
  | share | issue | enter | onward | retire | ripen | stale | rest | close | cancelled =>
    exact (idle rfl).elim
  | refuse | arriveBusy | land | deliver | giveUp | leave | abandon | drain | cancel =>
    exact (none rfl rfl).elim
  | @arriveIdle _ id _ home found =>
    rw [List.append_assoc] at noted
    cases List.append_cancel_left noted
    rcases List.mem_cons.mp starts with equal | last
    · cases equal
    · cases List.mem_singleton.mp last
      refine ⟨⟨role?_newcomer reached.numbered _ _ _, ?_⟩, rfl, by simp, ?_⟩
      · rw [reached.numbered.role?_next]
        nofun
      · simp [State.queue, Slots.get_set, Path.same_refl, Slots.waitersOf_none]
  | @launch _ home pending found waits | @again _ home _ pending found waits =>
    cases List.append_cancel_left noted
    cases List.mem_singleton.mp starts
    refine ⟨⟨Tasks.role?_update_self found _, ?_⟩, ?_, reached.nonempty root pending waits, ?_⟩
    · rw [Tasks.role?_of_get? found]
      nofun
    · simp [State.queue, Slots.waitersOf_of_pending waits, Entry.arrivals]
    · simp [State.queue, Slots.get_set, Path.same_refl, Slots.waitersOf_none]

/-- A task that takes an analysis up with a step has an entry for it. -/
theorem Move.started_of_flying (move : Move state actor next)
    (reached : Reachable setup { shared } state) {entries : List Entry}
    (noted : next.journal = state.journal ++ entries) {root : String} {task : Nat}
    {waiters : List Nat} (flies : next.tasks.role? task = some (.drive root waiters .flying))
    (new : state.tasks.role? task ≠ some (.drive root waiters .flying)) :
    .started root task waiters ∈ entries := by
  have numbered := reached.numbered
  cases move with
  | arriveIdle found =>
    rw [List.append_assoc] at noted
    cases List.append_cancel_left noted
    by_cases newcomer : task = state.nextTask
    · rw [newcomer, role?_newcomer numbered] at flies
      cases flies
      rw [newcomer]
      exact List.mem_cons_of_mem _ (List.mem_singleton_self _)
    · exact absurd (role?_of_arrive numbered newcomer flies) new
  | arriveBusy found =>
    by_cases newcomer : task = state.nextTask
    · rw [newcomer, role?_newcomer numbered] at flies
      cases flies
    · exact absurd (role?_of_arrive numbered newcomer flies) new
  | @launch actor _ _ found | @again actor _ _ _ found =>
    cases List.append_cancel_left noted
    by_cases mine : task = actor
    · rw [mine, Tasks.role?_update_self found] at flies
      cases flies
      rw [mine]
      exact List.mem_singleton_self _
    · rw [Tasks.role?_update, if_neg mine] at flies
      exact absurd flies new
  | cancel found =>
    rw [Tasks.role?_update, Tasks.role?_of_get? (reached.timed.get?_cancel found)] at flies
    split at flies
    · cases flies
    · exact absurd (Tasks.role?_of_cancelTimer flies) new
  | share => exact absurd flies new
  | onward found _ _ same =>
    rw [Tasks.role?_update, Tasks.role?_of_get? found, Option.map_some, same,
      ← Tasks.role?_of_get? found] at flies
    split at flies
    next mine =>
      rw [← mine] at flies
      exact absurd flies new
    · exact absurd flies new
  | _ =>
    refine absurd ?_ new
    clear noted
    grind

/-! ### When everything has come to rest -/

/-- Whether no timer runs and no root is worked on. -/
def State.AtRest (state : State) : Prop :=
  ∀ task role, state.tasks.role? task = some role →
    (∀ root pending, role ≠ .timer root pending) ∧
      ∀ root waiters leg, role ≠ .drive root waiters leg

/-- At rest, every root is idle. -/
theorem Reachable.idle_of_rest (reached : Reachable setup { shared } state) (rest : state.AtRest)
    (root : String) : (state.slots.get root).running = false := by
  cases busy : (state.slots.get root).running with
  | false => rfl
  | true =>
    obtain ⟨task, spelling, waiters, leg, _, role, _⟩ := reached.works_of_running busy
    exact absurd rfl ((rest task _ role).2 spelling waiters leg)

/-- At rest, nobody waits, unless the coordinator was shut down. -/
theorem Reachable.queue_of_rest (reached : Reachable setup { shared } state) (rest : state.AtRest)
    (up : state.shutDown = false) (root : String) : state.queue root = [] := by
  unfold State.queue Slots.waitersOf
  cases waits : (state.slots.get root).pending with
  | none => rfl
  | some pending =>
    cases held : pending.timer with
    | some timer =>
      obtain ⟨spelling, _, timed⟩ := reached.timed.armed root pending timer waits held
      exact absurd rfl ((rest timer _ timed).1 spelling pending.id)
    | none =>
      rcases reached.ripe root pending waits held with busy | down
      · rw [reached.idle_of_rest rest root] at busy
        cases busy
      · rw [up] at down
        cases down

/-! ### Triggers that arrive during an analysis -/

/-- The triggers that arrive during an analysis share the next one, which is the only one if no
more arrive. -/
theorem Reachable.one_more (reached : Reachable setup { shared } state) (rest : state.AtRest)
    (up : state.shutDown = false) {root home : String} {task : Nat} {waiters : List Nat}
    {before during after : List Entry}
    (equal : state.journalOf root = before ++ .started home task waiters :: (during ++ after))
    (flies : ∀ entry ∈ during, entry.lands = false)
    (whole : ∀ home task dropped, .brokenOff home task dropped ∉ during ++ after)
    (some : during.flatMap Entry.arrivals ≠ []) (quiet : after.flatMap Entry.arrivals = []) :
    during.flatMap Entry.starts = [] ∧
      after.flatMap Entry.starts = [during.flatMap Entry.arrivals] ∧
      ∃ home task outcome, .answered home task (during.flatMap Entry.arrivals) outcome ∈ after := by
  obtain ⟨last, follows, waits, flight⟩ := reached.recorded root
  have calm : ∀ entry ∈ during ++ after, entry.breaks = false := by
    intro entry member
    cases entry with
    | brokenOff home task dropped => exact absurd member (whole home task dropped)
    | drained =>
      have noted : .drained ∈ state.journalOf root := by
        rw [equal]
        exact List.mem_append_right _ (List.mem_cons_of_mem _ member)
      rw [reached.shutDown_of_drained (List.mem_of_mem_filter noted)] at up
      cases up
    | _ => rfl
  have calmDuring : ∀ entry ∈ during, entry.breaks = false :=
    fun entry member => calm entry (List.mem_append_left _ member)
  have calmAfter : ∀ entry ∈ after, entry.breaks = false :=
    fun entry member => calm entry (List.mem_append_right _ member)
  rw [equal] at follows
  obtain ⟨start, _, follows⟩ := follows.of_append
  obtain ⟨aloft, takes, follows⟩ := follows.of_cons
  obtain ⟨middle, first, second⟩ := follows.of_append
  cases takes with
  | started =>
    obtain ⟨alone, _⟩ := first.starts_of_flight rfl flies
    have queue : during.flatMap Entry.arrivals = middle.queue := by
      simpa [alone] using first.queue_eq calmDuring
    rw [queue] at some ⊢
    refine ⟨alone, ?_⟩
    rw [reached.queue_of_rest rest up root] at waits
    have starts : after.flatMap Entry.starts = [middle.queue] := by
      rcases second.starts_of_quiet calmAfter quiet with ⟨_, same⟩ | ⟨starts, _⟩
      · rw [waits] at same
        exact absurd same.symm some
      · exact starts
    refine ⟨starts, ?_⟩
    -- The analysis that serves them is not under way any more, so it has answered them.
    obtain ⟨entry, noted, serves⟩ : ∃ entry ∈ after, middle.queue ∈ entry.starts := by
      rw [← List.mem_flatMap, starts]
      exact List.mem_singleton_self _
    cases entry with
    | started home task served =>
      cases List.mem_singleton.mp serves
      obtain ⟨early, late, rfl⟩ := List.append_of_mem noted
      obtain ⟨_, _, third⟩ := second.of_append
      obtain ⟨_, takes, third⟩ := third.of_cons
      cases takes with
      | started =>
        rcases third.answered_of_flight ⟨none, rfl⟩ fun entry member =>
          calmAfter entry (List.mem_append_right _ (List.mem_cons_of_mem _ member)) with
          ⟨outcome, flies⟩ | ⟨home, outcome, answered⟩
        · obtain ⟨spelling, _, role⟩ := (flight _).mp flies
          exact absurd rfl ((rest _ _ role).2 spelling _ _)
        · exact ⟨home, task, outcome, List.mem_append_right _ (List.mem_cons_of_mem _ answered)⟩
    | _ => cases serves

/-- The journal has the start of every analysis. The step that starts one takes all triggers that
wait at the root, and one at least. So a root is analyzed no more often than triggers arrive at it;
and triggers that arrive while it is analyzed, if none arrive later and nothing is shut down or
breaks off, share exactly one more analysis by the time when no timer runs and no root is worked
on. -/
theorem burst_costs_one_analysis (reached : Reachable setup { shared } state) :
    (∀ event next entries, step setup state event = some next →
      next.journal = state.journal ++ entries → ∀ root task waiters,
      (.started root task waiters ∈ entries ↔
        next.tasks.role? task = some (.drive root waiters .flying) ∧
        state.tasks.role? task ≠ some (.drive root waiters .flying)) ∧
      (.started root task waiters ∈ entries →
        waiters = state.queue root ++ entries.flatMap Entry.arrivals ∧ waiters ≠ [] ∧
        next.queue root = [])) ∧
    (∀ root, ((state.journalOf root).flatMap Entry.starts).length ≤
      ((state.journalOf root).flatMap Entry.arrivals).length) ∧
    (∀ root before home task waiters during after,
      state.journalOf root = before ++ .started home task waiters :: (during ++ after) →
      (∀ entry ∈ during, entry.lands = false) →
      (∀ home task dropped, .brokenOff home task dropped ∉ during ++ after) →
      state.shutDown = false → state.AtRest → during.flatMap Entry.arrivals ≠ [] →
      after.flatMap Entry.arrivals = [] →
        during.flatMap Entry.starts = [] ∧
        after.flatMap Entry.starts = [during.flatMap Entry.arrivals] ∧
        ∃ home task outcome,
          .answered home task (during.flatMap Entry.arrivals) outcome ∈ after) := by
  refine ⟨?_, ?_, ?_⟩
  · intro event next entries happens noted root task waiters
    have move := move_of_step happens
    refine ⟨⟨fun starts => (move.takes_all reached noted starts).1, ?_⟩,
      fun starts => (move.takes_all reached noted starts).2⟩
    rintro ⟨flies, new⟩
    exact move.started_of_flying reached noted flies new
  · intro root
    obtain ⟨ledger, follows, _⟩ := reached.recorded root
    exact Nat.le_trans (Nat.le_add_right _ _) follows.length_starts_le
  · intro root before home task waiters during after equal flies whole up rest some quiet
    exact reached.one_more rest up equal flies whole some quiet

theorem burst_costs_one_analysis_burst : ∃ state before after,
    run oneRoot { shared := fresh } burst = some state ∧
    ((state.journalOf "/a").flatMap Entry.starts).length ≤
      ((state.journalOf "/a").flatMap Entry.arrivals).length ∧
    state.journalOf "/a" = before ++ after ∧ after.flatMap Entry.starts = [[1, 2]] := by
  have reached : Reachable oneRoot { shared := fresh } _ := ⟨burst, rfl⟩
  obtain ⟨_, few, once⟩ := burst_costs_one_analysis reached
  have costs := once "/a" [.arrived "/a" 0] "/a" 1 [0] [.arrived "/a" 1, .arrived "/a" 2]
    [.ended "/a" 1 (.skipped .disabled), .answered "/a" 1 [0] (.skipped .disabled),
      .started "/a" 1 [1, 2], .ended "/a" 1 (.skipped .disabled),
      .answered "/a" 1 [1, 2] (.skipped .disabled)]
  refine ⟨_, [.arrived "/a" 0, .started "/a" 1 [0], .arrived "/a" 1, .arrived "/a" 2], _, rfl,
    few "/a", rfl, ?_⟩
  exact (costs rfl (by decide) (by simp) rfl nofun nofun rfl).2.1

end StyleMonitor.Coordinator
