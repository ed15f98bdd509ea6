import StyleMonitor.Proofs.Coordinator.Moves

/-!
# Timers

Pending analyses hold handles of their timers, in a slot or in the hands of a shutdown. The
invariant `Timed` says where a handle can lead: to the timer that carries the number of the pending
analysis, and, once a shutdown has the handle, to nothing at all. So whoever uses a handle ends a
timer or nothing.
-/

namespace StyleMonitor.Coordinator

variable {setup : Setup} {shared : Shared} {state next : State} {actor : Option Nat}

attribute [grind =] Tasks.role?_update Tasks.role?_remove Tasks.Numbered.role?_append
  Slots.get_set Slots.get_drain Slots.pending_set_flag
attribute [grind →] Tasks.role?_of_get? Tasks.Numbered.role?_lt Tasks.Numbered.role?_next
attribute [grind] Task.role DrivePhase.leg

/-! ### Numbers of tasks, spellings of roots -/

theorem Reachable.numbered (reached : Reachable setup { shared } state) :
    state.tasks.Numbered state.nextTask := by
  refine reached.induction ⟨List.nodup_nil, nofun⟩ ?_
  intro state next actor _ _ h move
  cases move with
  | share => exact h
  | issue | enter => exact h.append _
  | arriveIdle | arriveBusy => exact ((h.remove _).cancelTimer _).append _
  | cancel => exact (h.cancelTimer _).update _ _
  | retire | refuse | ripen | stale | rest | abandon => exact h.remove _
  | onward | launch | land | deliver | again | giveUp | leave | close | drain | cancelled =>
    exact h.update _ _

theorem Reachable.distinct (reached : Reachable setup { shared } state) :
    state.slots.Distinct := by
  refine reached.induction List.Pairwise.nil ?_
  intro state next actor _ _ h move
  cases move with
  | arriveIdle | arriveBusy | launch | ripen | again | rest | giveUp | leave => exact h.set _ _
  | drain => exact h.drain
  | _ => exact h

/-! ### Pending analyses -/

theorem Move.nextPending_le (move : Move state actor next) :
    state.nextPending ≤ next.nextPending := by
  cases move with
  | arriveBusy => exact Nat.le_succ _
  | _ => exact Nat.le_refl _

/-- A pending analysis was there before a step, or its timer has just elapsed, or a trigger has just
put it there. -/
theorem Move.pending_cases (move : Move state actor next) {root : String} {pending : Pending}
    (waits : (next.slots.get root).pending = some pending) :
    (state.slots.get root).pending = some pending ∨
    (∃ old, (state.slots.get root).pending = some old ∧ pending = { old with timer := none }) ∨
    ∃ waiters id, pending = ⟨state.nextPending, some state.nextTask, waiters ++ [id]⟩ ∧
      next.nextPending = state.nextPending + 1 := by
  cases move with
  | @arriveBusy _ id =>
    rw [Slots.get_set] at waits
    split at waits
    · cases waits
      exact Or.inr (Or.inr ⟨_, id, rfl, rfl⟩)
    · exact Or.inl waits
  | arriveIdle | launch | again | giveUp =>
    rw [Slots.get_set] at waits
    split at waits
    · cases waits
    · exact Or.inl waits
  | ripen _ old =>
    rw [Slots.get_set] at waits
    split at waits
    next same =>
      cases waits
      rw [Slots.get_congr same] at old
      exact Or.inr (Or.inl ⟨_, old, rfl⟩)
    · exact Or.inl waits
  | rest | leave =>
    rw [Slots.pending_set_flag] at waits
    exact Or.inl waits
  | drain =>
    rw [Slots.get_drain] at waits
    cases waits
  | _ => exact Or.inl waits

/-! ### The invariant -/

/-- Counts a timer that carries the number of a pending analysis. -/
def Role.carries (id : Nat) : Role → Nat
  | timer _ pending => if pending = id then 1 else 0
  | trigger _ | drive .. | toggle | shutdown _ => 0

/-- What is known of a pending analysis that a shutdown took out of its slot. -/
structure Taken (state : State) (pending : Pending) : Prop where
  known : pending.id < state.nextPending
  gone : ∀ root other, (state.slots.get root).pending = some other → other.id ≠ pending.id
  /-- Its handle leads to its timer or nowhere, and always will. -/
  handle : ∀ timer, pending.timer = some timer → timer < state.nextTask ∧
    ∀ role, state.tasks.role? timer = some role → ∃ spelling, role = .timer spelling pending.id

/-- Every timer carries a number of its own, and every handle leads to the timer that carries the
number of the pending analysis. -/
structure Timed (state : State) : Prop where
  single : ∀ id, state.tasks.tally (Role.carries id) ≤ if id < state.nextPending then 1 else 0
  known : ∀ root pending, (state.slots.get root).pending = some pending →
    pending.id < state.nextPending
  armed : ∀ root pending timer, (state.slots.get root).pending = some pending →
    pending.timer = some timer → ∃ spelling, Path.same spelling root = true ∧
      state.tasks.role? timer = some (.timer spelling pending.id)
  taken : ∀ task drained, state.tasks.role? task = some (.shutdown (.cancel drained)) →
    ∀ pending ∈ drained, Taken state pending

theorem Timed.of_timerOf (h : Timed state) {root : String} {timer : Nat}
    (held : Slots.timerOf (state.slots.get root) = some timer) :
    ∃ spelling id, Path.same spelling root = true ∧
      state.tasks.role? timer = some (.timer spelling id) := by
  obtain ⟨pending, waits, equal⟩ := Option.bind_eq_some_iff.mp held
  obtain ⟨spelling, same, found⟩ := h.armed root pending timer waits equal
  exact ⟨spelling, pending.id, same, found⟩

/-- The handle in a slot does not lead to a task of another kind. -/
theorem Timed.timerOf_ne (h : Timed state) {task : Nat} {role : Role}
    (found : state.tasks.role? task = some role) (other : ∀ spelling id, role ≠ .timer spelling id)
    (root : String) : Slots.timerOf (state.slots.get root) ≠ some task := by
  intro held
  obtain ⟨spelling, id, _, timer⟩ := h.of_timerOf held
  rw [found] at timer
  exact other spelling id (Option.some.inj timer)

/-- A handle that a shutdown has does not lead to a task of another kind. -/
theorem Taken.timer_ne {pending : Pending} (h : Taken state pending) {task : Nat} {role : Role}
    (found : state.tasks.role? task = some role)
    (other : ∀ spelling, role ≠ .timer spelling pending.id) : pending.timer ≠ some task := by
  intro held
  obtain ⟨spelling, equal⟩ := (h.handle task held).2 role found
  exact other spelling equal

/-- A timer of another root outlives the arrival of a trigger at a root. -/
theorem Timed.role?_arrive (h : Timed state) (numbered : state.tasks.Numbered state.nextTask)
    {home root spelling : String} {task waiter timer id : Nat}
    (arrives : state.tasks.role? task = some (.trigger waiter))
    (timed : state.tasks.role? timer = some (.timer spelling id))
    (same : Path.same spelling root = true) (apart : ¬ Path.same home root = true) (new : Task) :
    Tasks.role? ((state.tasks.remove task).cancelTimer (Slots.timerOf (state.slots.get home)) ++
      [(state.nextTask, new)]) timer = some (.timer spelling id) := by
  have hne : Slots.timerOf (state.slots.get home) ≠ some timer := by
    intro held
    obtain ⟨other, id, sameHome, timed'⟩ := h.of_timerOf held
    rw [timed] at timed'
    cases timed'
    rw [Path.same_congr_left same, Path.same_comm] at sameHome
    exact apart sameHome
  have old : timer ≠ state.nextTask := Nat.ne_of_lt (numbered.role?_lt timed)
  have stays : timer ≠ task := by
    rintro rfl
    rw [timed] at arrives
    cases arrives
  rw [((numbered.remove task).cancelTimer _).role?_append, if_neg old,
    Tasks.role?_cancelTimer_of_ne hne, Tasks.role?_remove, if_neg stays, timed]

/-- The arrival of a trigger gives the next task its role. -/
theorem role?_newcomer (numbered : state.tasks.Numbered state.nextTask) (task : Nat)
    (handle : Option Nat) (new : Task) :
    Tasks.role? ((state.tasks.remove task).cancelTimer handle ++ [(state.nextTask, new)])
      state.nextTask = some new.role := by
  rw [((numbered.remove task).cancelTimer _).role?_append, if_pos rfl]

/-- The arrival of a trigger gives no other task a role. -/
theorem role?_of_arrive (numbered : state.tasks.Numbered state.nextTask) {task other : Nat}
    {handle : Option Nat} {new : Task} {role : Role} (old : other ≠ state.nextTask)
    (h : Tasks.role? ((state.tasks.remove task).cancelTimer handle ++ [(state.nextTask, new)])
      other = some role) : state.tasks.role? other = some role := by
  rw [((numbered.remove task).cancelTimer _).role?_append, if_neg old] at h
  have h := Tasks.role?_of_cancelTimer h
  rw [Tasks.role?_remove] at h
  split at h
  · cases h
  · exact h

/-- The sum over all tasks does not grow when a trigger's task ends and a handle is used. -/
theorem tally_leave_le (numbered : state.tasks.Numbered state.nextTask) {task : Nat} {old : Task}
    (found : state.tasks.get? task = some old) (timer : Option Nat) (f : Role → Nat) :
    ((state.tasks.remove task).cancelTimer timer).tally f ≤ state.tasks.tally f :=
  Nat.le_trans ((numbered.remove task).tally_cancelTimer_le timer f)
    (numbered.tally_remove_le found f)

/-- A task of another kind outlives the use of a handle by a shutdown. -/
theorem Timed.get?_cancel (h : Timed state) {task : Nat} {pending : Pending}
    {others : List Pending}
    (found : state.tasks.get? task = some (.shutdown (.cancel (pending :: others)))) :
    (state.tasks.cancelTimer pending.timer).get? task =
      some (.shutdown (.cancel (pending :: others))) := by
  have taken := h.taken task _ (Tasks.role?_of_get? found) pending List.mem_cons_self
  rw [Tasks.get?_cancelTimer_of_ne (taken.timer_ne (Tasks.role?_of_get? found) nofun), found]

/-- To a sum to which timers do not add, the arrival of a trigger is the end of its task. -/
theorem Timed.tally_leave (h : Timed state) (numbered : state.tasks.Numbered state.nextTask)
    {f : Role → Nat} (untimed : ∀ root id, f (.timer root id) = 0) {task : Nat} {old : Task}
    (found : state.tasks.get? task = some old) (home : String) :
    ((state.tasks.remove task).cancelTimer (Slots.timerOf (state.slots.get home))).tally f +
      f old.role = state.tasks.tally f := by
  rw [(numbered.remove task).tally_cancelTimer]
  · exact numbered.tally_remove found f
  · intro timer other held there
    rw [Tasks.get?_remove] at there
    split at there
    · cases there
    · obtain ⟨spelling, id, _, timed⟩ := h.of_timerOf held
      rw [Tasks.role?_of_get? there] at timed
      rw [Option.some.inj timed]
      exact untimed spelling id

/-- To a sum to which timers do not add, the use of a handle by a shutdown is nothing. -/
theorem Timed.tally_cancel (h : Timed state) (numbered : state.tasks.Numbered state.nextTask)
    {f : Role → Nat} (untimed : ∀ root id, f (.timer root id) = 0) {task : Nat}
    {pending : Pending} {others : List Pending}
    (found : state.tasks.get? task = some (.shutdown (.cancel (pending :: others)))) :
    (state.tasks.cancelTimer pending.timer).tally f = state.tasks.tally f := by
  rw [numbered.tally_cancelTimer]
  intro timer other held there
  have taken := h.taken task _ (Tasks.role?_of_get? found) pending List.mem_cons_self
  obtain ⟨spelling, equal⟩ := (taken.handle timer held).2 _ (Tasks.role?_of_get? there)
  rw [equal]
  exact untimed spelling pending.id

/-- A task that is no timer goes on undisturbed by every step that is not its own. -/
theorem Timed.get?_kept (h : Timed state) (numbered : state.tasks.Numbered state.nextTask)
    {task : Nat} {old : Task} (works : state.tasks.get? task = some old)
    (untimed : ∀ spelling id, old.role ≠ .timer spelling id) (move : Move state actor next)
    (other : actor ≠ some task) : next.tasks.get? task = some old := by
  have role := Tasks.role?_of_get? works
  have old := Nat.ne_of_lt (numbered.get?_lt works)
  have apart : ∀ {id}, actor = some id → task ≠ id := by
    rintro id rfl rfl
    exact other rfl
  cases move with
  | share => exact works
  | issue | enter => rw [numbered.get?_append, if_neg old, works]
  | arriveIdle | arriveBusy =>
    rw [((numbered.remove _).cancelTimer _).get?_append, if_neg old,
      Tasks.get?_cancelTimer_of_ne (h.timerOf_ne role untimed _), Tasks.get?_remove,
      if_neg (apart rfl), works]
  | cancel found =>
    have taken := h.taken _ _ (Tasks.role?_of_get? found) _ List.mem_cons_self
    rw [Tasks.get?_update, if_neg (apart rfl), Tasks.get?_cancelTimer_of_ne, works]
    exact taken.timer_ne role fun spelling => untimed spelling _
  | retire | refuse | ripen | stale | rest | abandon =>
    rw [Tasks.get?_remove, if_neg (apart rfl), works]
  | onward | launch | land | deliver | again | giveUp | leave | close | drain | cancelled =>
    rw [Tasks.get?_update, if_neg (apart rfl), works]

/-! ### Every step keeps it -/

theorem Timed.single_kept (h : Timed state) (numbered : state.tasks.Numbered state.nextTask)
    (move : Move state actor next) (id : Nat) :
    next.tasks.tally (Role.carries id) ≤ if id < next.nextPending then 1 else 0 := by
  have single := h.single id
  cases move with
  | share => exact single
  | issue =>
    rw [Tasks.tally_append]
    exact single
  | enter task calm =>
    rw [Tasks.tally_enter calm rfl rfl]
    exact single
  | arriveIdle found =>
    rw [Tasks.tally_append]
    exact Nat.le_trans (tally_leave_le numbered found _ _) single
  | arriveBusy found =>
    rw [Tasks.tally_append]
    refine Nat.le_trans (Nat.add_le_add_right (tally_leave_le numbered found _ _) _) ?_
    -- Only the number of the new pending analysis gains a timer, and it had none.
    simp only [Task.role, Role.carries]
    split at single <;> split <;> split <;> omega
  | cancel found =>
    refine Nat.le_trans ((numbered.cancelTimer _).tally_update_le (h.get?_cancel found)
      (Nat.zero_le _)) ?_
    exact Nat.le_trans (numbered.tally_cancelTimer_le _ _) single
  | retire found | refuse found | ripen found | stale found | rest found | abandon found =>
    exact Nat.le_trans (numbered.tally_remove_le found _) single
  | onward found _ _ same =>
    rw [numbered.tally_onward found same]
    exact single
  | launch found | land found | deliver found | again found | giveUp found | leave found
  | close found | drain found | cancelled found =>
    exact Nat.le_trans (numbered.tally_update_le found (Nat.zero_le _)) single

theorem Timed.known_kept (h : Timed state) (move : Move state actor next) (root : String)
    (pending : Pending) (waits : (next.slots.get root).pending = some pending) :
    pending.id < next.nextPending := by
  rcases move.pending_cases waits with kept | ⟨old, kept, rfl⟩ | ⟨_, _, rfl, more⟩
  · exact Nat.lt_of_lt_of_le (h.known root pending kept) move.nextPending_le
  · exact Nat.lt_of_lt_of_le (h.known root old kept) move.nextPending_le
  · rw [more]
    exact Nat.lt_succ_self _

theorem Timed.armed_kept (h : Timed state) (numbered : state.tasks.Numbered state.nextTask)
    (move : Move state actor next) (root : String) (pending : Pending) (timer : Nat)
    (waits : (next.slots.get root).pending = some pending)
    (held : pending.timer = some timer) : ∃ spelling, Path.same spelling root = true ∧
      next.tasks.role? timer = some (.timer spelling pending.id) := by
  have armed := h.armed
  cases move with
  | share => exact armed root pending timer waits held
  | arriveIdle found idle =>
    rw [Slots.get_set] at waits
    split at waits
    · cases waits
    next apart =>
    obtain ⟨spelling, same, timed⟩ := armed root pending timer waits held
    exact ⟨spelling, same,
      h.role?_arrive numbered (Tasks.role?_of_get? found) timed same apart _⟩
  | @arriveBusy _ _ _ home found busy =>
    rw [Slots.get_set] at waits
    split at waits
    next same =>
      cases waits
      cases held
      exact ⟨home, same, role?_newcomer numbered _ _ _⟩
    next apart =>
    obtain ⟨spelling, same, timed⟩ := armed root pending timer waits held
    exact ⟨spelling, same,
      h.role?_arrive numbered (Tasks.role?_of_get? found) timed same apart _⟩
  | stale => grind [Slots.get_congr]
  | @cancel task gone others found =>
    have taken := h.taken task _ (Tasks.role?_of_get? found) gone List.mem_cons_self
    obtain ⟨spelling, same, timed⟩ := armed root pending timer waits held
    have hne : gone.timer ≠ some timer := by
      refine taken.timer_ne timed ?_
      intro other equal
      exact taken.gone root pending waits (Role.timer.inj equal).2
    refine ⟨spelling, same, ?_⟩
    rw [Tasks.role?_update, Tasks.role?_cancelTimer_of_ne hne]
    grind
  | _ => grind

theorem Taken.kept {pending : Pending} (h : Taken state pending) (timed : Timed state)
    (numbered : state.tasks.Numbered state.nextTask) (move : Move state actor next) :
    Taken next pending := by
  obtain ⟨known, gone, handle⟩ := h
  constructor
  · exact Nat.lt_of_lt_of_le known move.nextPending_le
  · intro root other waits
    rcases move.pending_cases waits with kept | ⟨old, kept, rfl⟩ | ⟨_, _, rfl, _⟩
    · exact gone root other kept
    · exact gone root old kept
    · exact Nat.ne_of_gt known
  · intro timer held
    obtain ⟨below, leads⟩ := handle timer held
    cases move with
    | share => exact ⟨below, leads⟩
    | arriveIdle | arriveBusy =>
      refine ⟨Nat.lt_succ_of_lt below, ?_⟩
      intro role found
      exact leads role (role?_of_arrive numbered (Nat.ne_of_lt below) found)
    | @cancel task other others found =>
      refine ⟨below, ?_⟩
      intro role leads'
      rw [Tasks.role?_update, Tasks.role?_of_get? (timed.get?_cancel found)] at leads'
      split at leads'
      next equal =>
        subst equal
        obtain ⟨_, equal⟩ := leads _ (Tasks.role?_of_get? found)
        cases equal
      · exact leads role (Tasks.role?_of_cancelTimer leads')
    | _ => grind

/-- A shutdown has only what it took out of the slots. -/
theorem Timed.taken_kept (h : Timed state) (numbered : state.tasks.Numbered state.nextTask)
    (distinct : state.slots.Distinct) (move : Move state actor next) (task : Nat)
    (drained : List Pending)
    (found : next.tasks.role? task = some (.shutdown (.cancel drained))) :
    ∀ pending ∈ drained, Taken next pending := by
  intro pending member
  have taken : ∀ {list}, state.tasks.role? task = some (.shutdown (.cancel list)) →
      pending ∈ list → Taken next pending :=
    fun found member => (h.taken task _ found pending member).kept h numbered move
  cases move with
  | share => exact taken found member
  | arriveIdle | arriveBusy =>
    refine taken (role?_of_arrive numbered ?_ found) member
    rintro rfl
    rw [role?_newcomer numbered] at found
    cases found
  | @drain actor drains =>
    by_cases other : task = actor
    · subst other
      rw [Tasks.role?_update_self drains] at found
      cases found
      obtain ⟨root, waits⟩ := distinct.get_of_mem_drain member
      constructor
      · exact h.known root pending waits
      · intro other left kept
        rw [Slots.get_drain] at kept
        cases kept
      · intro timer held
        obtain ⟨spelling, _, timed⟩ := h.armed root pending timer waits held
        refine ⟨numbered.role?_lt timed, ?_⟩
        intro role leads
        grind
    · rw [Tasks.role?_update, if_neg other] at found
      exact taken found member
  | @cancel actor first others cancels =>
    by_cases other : task = actor
    · subst other
      rw [Tasks.role?_update_self (h.get?_cancel cancels)] at found
      cases found
      exact taken (Tasks.role?_of_get? cancels) (List.mem_cons_of_mem _ member)
    · rw [Tasks.role?_update, if_neg other] at found
      exact taken (Tasks.role?_of_cancelTimer found) member
  | _ => grind

theorem Reachable.timed (reached : Reachable setup { shared } state) : Timed state := by
  refine reached.induction ?_ ?_
  · exact ⟨fun _ => Nat.zero_le _, nofun, nofun, nofun⟩
  · intro state next actor reached _ h move
    exact ⟨h.single_kept reached.numbered move, h.known_kept move,
      h.armed_kept reached.numbered move,
      h.taken_kept reached.numbered reached.distinct move⟩

end StyleMonitor.Coordinator
