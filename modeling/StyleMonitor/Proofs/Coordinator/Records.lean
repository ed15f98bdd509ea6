import StyleMonitor.Proofs.Coordinator.Custody

/-!
# The journal and the state

The journal of a root is a record of the root's present: the triggers that wait there, and the
analysis that is under way. `Reachable.recorded` says so for every state that can come about, and
the journal follows the rules for journals of a root.
-/

namespace StyleMonitor.Coordinator

variable {setup : Setup} {shared : Shared} {state next : State} {actor : Option Nat}

/-- The entries of the journal that are about a root. -/
def State.journalOf (state : State) (root : String) : List Entry :=
  state.journal.filter (·.concerns root)

/-- How far the task that does an analysis is. -/
def Flight.leg (flight : Flight) : Leg :=
  match flight.outcome with
  | none => .flying
  | some outcome => .landed outcome

/-- The role of the task that does an analysis. -/
def Flight.role (flight : Flight) (root : String) : Role :=
  .drive root flight.waiters flight.leg

/-- Whether a task is doing an analysis of a root. -/
def Tasks.Flies (tasks : Tasks) (root : String) (flight : Flight) : Prop :=
  ∃ spelling, Path.same spelling root = true ∧
    tasks.role? flight.task = some (flight.role spelling)

/-! ### Pending analyses -/

/-- A pending analysis serves one trigger at least. -/
theorem Reachable.nonempty (reached : Reachable setup { shared } state) :
    ∀ root pending, (state.slots.get root).pending = some pending → pending.waiters ≠ [] := by
  refine reached.induction nofun ?_
  intro state next actor reached _ h move root pending waits
  rcases move.pending_cases waits with kept | ⟨old, kept, rfl⟩ | ⟨waiters, id, rfl, _⟩
  · exact h root pending kept
  · exact h root old kept
  · exact List.append_ne_nil_of_right_ne_nil _ (List.cons_ne_nil _ _)

/-- Once a shutdown has begun, the coordinator is shut down for good. -/
theorem Reachable.closing (reached : Reachable setup { shared } state) :
    ∀ task phase, state.tasks.role? task = some (.shutdown phase) → phase ≠ .start →
      state.shutDown = true := by
  refine reached.induction nofun ?_
  intro state next actor reached _ h move task phase found later
  have numbered := reached.numbered
  cases move with
  | share => exact h task phase found later
  | close => rfl
  | arriveIdle | arriveBusy =>
    refine h task phase (role?_of_arrive numbered ?_ found) later
    rintro rfl
    rw [role?_newcomer numbered] at found
    cases found
  | cancel cancels => exact h _ _ (Tasks.role?_of_get? cancels) nofun
  | _ => grind

theorem Reachable.shutDown_of_drained (reached : Reachable setup { shared } state) :
    .drained ∈ state.journal → state.shutDown = true := by
  refine reached.induction nofun ?_
  intro state next actor reached _ h move drained
  cases move with
  | close => rfl
  | drain found => exact reached.closing _ _ (Tasks.role?_of_get? found) nofun
  | _ => grind

/-- A shutdown that is to take the pending analyses out is still to do so after a step, or has. -/
theorem Reachable.drains_kept (reached : Reachable setup { shared } state)
    (move : Move state actor next) {task : Nat}
    (role : state.tasks.role? task = some (.shutdown .drain)) :
    next.tasks.role? task = some (.shutdown .drain) ∨ .drained ∈ next.journal := by
  obtain ⟨old, found, equal⟩ := Option.map_eq_some_iff.mp role
  by_cases mine : actor = some task
  · cases move with
    | drain => exact Or.inr (List.mem_append_right _ (List.mem_singleton_self _))
    | share | issue | enter => cases mine
    | onward found' new _ same =>
      cases mine
      cases found.symm.trans found'
      left
      rw [Tasks.role?_update_self found, same, equal]
    | retire found' _ calm =>
      cases mine
      cases found.symm.trans found'
      rw [equal] at calm
      rcases calm with calm | calm | calm <;> cases calm
    | refuse found' | arriveIdle found' | arriveBusy found' | launch found' | ripen found'
    | stale found' | land found' | deliver found' | again found' | rest found' | giveUp found'
    | leave found' | abandon found' | close found' | cancel found' | cancelled found' =>
      cases mine
      cases found.symm.trans found'
      cases equal
  · left
    rw [Tasks.role?_of_get? (reached.timed.get?_kept reached.numbered found ?_ move mine), equal]
    intro spelling id timer
    rw [equal] at timer
    cases timer

/-- Once the coordinator is shut down, a shutdown is to take the pending analyses out, or has. -/
theorem Reachable.drains (reached : Reachable setup { shared } state) :
    state.shutDown = true → (∃ task, state.tasks.role? task = some (.shutdown .drain)) ∨
      .drained ∈ state.journal := by
  refine reached.induction nofun ?_
  intro state next actor reached _ h move down
  have kept : state.shutDown = true →
      (∃ task, next.tasks.role? task = some (.shutdown .drain)) ∨ .drained ∈ next.journal := by
    intro down
    rcases h down with ⟨task, role⟩ | noted
    · exact (reached.drains_kept move role).imp_left fun role => ⟨task, role⟩
    · exact Or.inr (move.mem_journal noted)
  cases move with
  | @close task found =>
    exact Or.inl ⟨task, Tasks.role?_update_self found _⟩
  | _ => exact kept down

/-- A pending analysis whose timer has elapsed waits for the work on its root, unless the
coordinator was shut down. -/
theorem Reachable.ripe (reached : Reachable setup { shared } state) :
    ∀ root pending, (state.slots.get root).pending = some pending → pending.timer = none →
      (state.slots.get root).running = true ∨ state.shutDown = true := by
  refine reached.induction nofun ?_
  intro state next actor reached _ h move root pending waits held
  cases move with
  | arriveIdle | arriveBusy | launch | ripen =>
    rw [Slots.get_set] at waits ⊢
    split
    · exact Or.inl rfl
    next apart =>
      rw [if_neg apart] at waits
      exact h root pending waits held
  | again | giveUp =>
    rw [Slots.get_set] at waits ⊢
    split at waits
    · cases waits
    next apart =>
      rw [if_neg apart]
      exact h root pending waits held
  | rest _ unripe =>
    rw [Slots.pending_set_flag] at waits
    rw [Slots.get_set]
    split
    next same =>
      rw [← Slots.get_congr same] at waits
      exact Or.inr (unripe pending waits held)
    · exact h root pending waits held
  | leave _ unripe =>
    rw [Slots.pending_set_flag] at waits
    rw [Slots.get_set]
    split
    next same =>
      rw [← Slots.get_congr same] at waits
      exact absurd held (unripe pending waits)
    · exact h root pending waits held
  | drain =>
    rw [Slots.get_drain] at waits
    cases waits
  | close => exact Or.inr rfl
  | _ => exact h root pending waits held

/-! ### The record -/

/-- Whether the journal of a root is a record of who waits there and what is under way. -/
def Recorded (state : State) (root : String) : Prop :=
  ∃ ledger, Ledger.Follows {} (state.journalOf root) ledger ∧
    ledger.queue = state.queue root ∧
    ∀ flight, ledger.flight = some flight ↔ state.tasks.Flies root flight

/-- A step makes its entries when it takes the analysis of a root from one stand to another. -/
theorem Recorded.turn {root : String} {before after : Option Flight} (h : Recorded state root)
    (entries : List Entry) (queue : List Nat)
    (noted : next.journalOf root = state.journalOf root ++ entries)
    (waits : next.queue root = queue)
    (was : ∀ flight, before = some flight ↔ state.tasks.Flies root flight)
    (now : ∀ flight, after = some flight ↔ next.tasks.Flies root flight)
    (follows : Ledger.Follows ⟨state.queue root, before⟩ entries ⟨queue, after⟩) :
    Recorded next root := by
  obtain ⟨⟨old, flight⟩, earlier, rfl, flies⟩ := h
  have same : flight = before := by
    refine Option.ext ?_
    intro other
    rw [was]
    exact flies other
  refine ⟨⟨queue, after⟩, ?_, waits.symm, now⟩
  rw [noted]
  subst same
  exact earlier.append follows

/-- A step that changes no analysis makes its entries. -/
theorem Recorded.extend {root : String} (h : Recorded state root) (entries : List Entry)
    (queue : List Nat) (noted : next.journalOf root = state.journalOf root ++ entries)
    (waits : next.queue root = queue)
    (flies : ∀ flight, next.tasks.Flies root flight ↔ state.tasks.Flies root flight)
    (follows : ∀ flight, Ledger.Follows ⟨state.queue root, flight⟩ entries ⟨queue, flight⟩) :
    Recorded next root := by
  have recorded := h
  obtain ⟨ledger, _, _, flying⟩ := h
  refine recorded.turn entries queue noted waits flying ?_ (follows ledger.flight)
  intro flight
  rw [flying, flies]

/-- Nothing is noted of a step that changes nothing at a root. -/
theorem Recorded.frame {root : String} (h : Recorded state root)
    (quiet : next.journalOf root = state.journalOf root)
    (waits : next.queue root = state.queue root)
    (flies : ∀ flight, next.tasks.Flies root flight ↔ state.tasks.Flies root flight) :
    Recorded next root := by
  refine h.extend [] _ ?_ waits flies fun _ => .nil
  rw [quiet, List.append_nil]

/-! ### Steps that change no analysis -/

/-- Whether a task in this role does an analysis of a root. -/
def Role.aloft (root : String) : Role → Bool
  | drive home _ .flying | drive home _ (.landed _) => Path.same home root
  | drive _ _ .settling | drive _ _ .leaving => false
  | trigger _ | timer .. | toggle | shutdown _ => false

theorem Flight.aloft_role (flight : Flight) {spelling root : String}
    (same : Path.same spelling root = true) : (flight.role spelling).aloft root = true := by
  obtain ⟨task, waiters, outcome⟩ := flight
  cases outcome with
  | none => exact same
  | some outcome => exact same

theorem Role.ne_of_aloft {root : String} {low high : Role} (grounded : low.aloft root = false)
    (aloft : high.aloft root = true) : some low ≠ some high := by
  intro equal
  cases equal
  rw [aloft] at grounded
  cases grounded

namespace Tasks

variable {tasks tasks' : Tasks} {task : Nat} {old new : Task} {root : String}

/-- Who does an analysis depends only on the roles in which one is done. -/
theorem flies_congr {flight : Flight} (h : ∀ role, role.aloft root = true →
    (tasks'.role? flight.task = some role ↔ tasks.role? flight.task = some role)) :
    tasks'.Flies root flight ↔ tasks.Flies root flight := by
  constructor
  · rintro ⟨spelling, same, flying⟩
    exact ⟨spelling, same, (h _ (flight.aloft_role same)).mp flying⟩
  · rintro ⟨spelling, same, flying⟩
    exact ⟨spelling, same, (h _ (flight.aloft_role same)).mpr flying⟩

theorem flies_update (found : tasks.get? task = some old) (before : old.role.aloft root = false)
    (after : new.role.aloft root = false) (flight : Flight) :
    (tasks.update task new).Flies root flight ↔ tasks.Flies root flight := by
  refine flies_congr ?_
  intro role aloft
  by_cases mine : flight.task = task
  · rw [mine, role?_update_self found, role?_of_get? found]
    exact iff_of_false (Role.ne_of_aloft after aloft) (Role.ne_of_aloft before aloft)
  · rw [role?_update, if_neg mine]

theorem flies_onward (found : tasks.get? task = some old) (same : new.role = old.role)
    (flight : Flight) : (tasks.update task new).Flies root flight ↔ tasks.Flies root flight := by
  refine flies_congr ?_
  intro role _
  by_cases mine : flight.task = task
  · rw [mine, role?_update_self found, role?_of_get? found, same]
  · rw [role?_update, if_neg mine]

theorem flies_remove (found : tasks.get? task = some old) (before : old.role.aloft root = false)
    (flight : Flight) : (tasks.remove task).Flies root flight ↔ tasks.Flies root flight := by
  refine flies_congr ?_
  intro role aloft
  by_cases mine : flight.task = task
  · rw [mine, role?_remove, if_pos rfl, role?_of_get? found]
    exact iff_of_false nofun (Role.ne_of_aloft before aloft)
  · rw [role?_remove, if_neg mine]

theorem Numbered.flies_append {next : Nat} (numbered : tasks.Numbered next)
    (after : new.role.aloft root = false) (flight : Flight) :
    Flies (tasks ++ [(next, new)]) root flight ↔ tasks.Flies root flight := by
  refine flies_congr ?_
  intro role aloft
  by_cases mine : flight.task = next
  · rw [mine, numbered.role?_append, if_pos rfl, numbered.role?_next]
    exact iff_of_false (Role.ne_of_aloft after aloft) nofun
  · rw [numbered.role?_append, if_neg mine]

theorem flies_cancelTimer {timer : Option Nat} {flight : Flight}
    (h : ∀ role, role.aloft root = true → tasks.role? flight.task = some role →
      timer ≠ some flight.task) :
    (tasks.cancelTimer timer).Flies root flight ↔ tasks.Flies root flight := by
  refine flies_congr ?_
  intro role aloft
  constructor
  · exact role?_of_cancelTimer
  · intro flying
    rw [role?_cancelTimer_of_ne (h role aloft flying), flying]

end Tasks

theorem Role.untimed_of_aloft {root : String} {role : Role} (aloft : role.aloft root = true)
    (spelling : String) (id : Nat) : role ≠ .timer spelling id := by
  rintro rfl
  cases aloft

/-- The arrival of a trigger that starts no analysis of a root changes none. -/
theorem Timed.flies_arrive (timed : Timed state) (numbered : state.tasks.Numbered state.nextTask)
    {task id : Nat} {path home root : String} {phase : TriggerPhase} {new : Task}
    (found : state.tasks.get? task = some (.trigger id path phase))
    (after : new.role.aloft root = false) (flight : Flight) :
    Tasks.Flies ((state.tasks.remove task).cancelTimer (Slots.timerOf (state.slots.get home)) ++
      [(state.nextTask, new)]) root flight ↔ state.tasks.Flies root flight := by
  rw [((numbered.remove task).cancelTimer _).flies_append after, Tasks.flies_cancelTimer,
    Tasks.flies_remove found rfl]
  intro role aloft flying
  rw [Tasks.role?_remove] at flying
  split at flying
  · cases flying
  · exact timed.timerOf_ne flying (Role.untimed_of_aloft aloft) home

/-- A shutdown that cancels a pending analysis leaves the analyses under way alone. -/
theorem Timed.flies_cancel (timed : Timed state) {task : Nat} {pending : Pending}
    {others : List Pending}
    (found : state.tasks.get? task = some (.shutdown (.cancel (pending :: others))))
    (root : String) (flight : Flight) :
    Tasks.Flies ((state.tasks.cancelTimer pending.timer).update task (.shutdown (.cancel others)))
      root flight ↔ state.tasks.Flies root flight := by
  have taken := timed.taken task _ (Tasks.role?_of_get? found) pending List.mem_cons_self
  rw [Tasks.flies_update (timed.get?_cancel found) rfl rfl, Tasks.flies_cancelTimer]
  intro role aloft flying
  exact taken.timer_ne flying fun spelling => Role.untimed_of_aloft aloft spelling _

/-! ### Who does the analysis of a root -/

theorem Flight.drives_role (flight : Flight) {spelling root : String}
    (same : Path.same spelling root = true) : (flight.role spelling).drives root = 1 := by
  obtain ⟨task, waiters, outcome⟩ := flight
  cases outcome with
  | none => simp [role, leg, Role.drives, same]
  | some outcome => simp [role, leg, Role.drives, same]

/-- The analysis of a root is the one that the task at work on the root does. -/
theorem Reachable.flies_iff (reached : Reachable setup { shared } state) {home root : String}
    {task : Nat} {waiters : List Nat} {leg : Leg}
    (found : state.tasks.role? task = some (.drive home waiters leg))
    (same : Path.same home root = true) (works : leg ≠ .leaving) (flight : Flight) :
    state.tasks.Flies root flight ↔
      flight.task = task ∧ waiters = flight.waiters ∧ leg = flight.leg := by
  constructor
  · rintro ⟨spelling, same', flying⟩
    have mine : flight.task = task :=
      reached.lone flying found (flight.drives_role same') (by simp [Role.drives, same, works])
    rw [mine, found] at flying
    cases flying
    exact ⟨mine, rfl, rfl⟩
  · rintro ⟨rfl, rfl, rfl⟩
    exact ⟨home, same, found⟩

theorem Reachable.flying_iff (reached : Reachable setup { shared } state) {home root : String}
    {task : Nat} {waiters : List Nat} (outcome : Option Outcome)
    (found : state.tasks.role? task =
      some (.drive home waiters (Flight.leg ⟨task, waiters, outcome⟩)))
    (same : Path.same home root = true) (flight : Flight) :
    some ⟨task, waiters, outcome⟩ = some flight ↔ state.tasks.Flies root flight := by
  have works : Flight.leg ⟨task, waiters, outcome⟩ ≠ .leaving := by
    cases outcome <;> exact nofun
  rw [reached.flies_iff found same works]
  obtain ⟨task', waiters', outcome'⟩ := flight
  constructor
  · intro equal
    cases equal
    exact ⟨rfl, rfl, rfl⟩
  · rintro ⟨rfl, rfl, legs⟩
    cases outcome with
    | none =>
      cases outcome' with
      | none => rfl
      | some other => cases legs
    | some outcome =>
      cases outcome' with
      | none => cases legs
      | some other =>
        cases legs
        rfl

theorem Reachable.settling_iff (reached : Reachable setup { shared } state) {home root : String}
    {task : Nat} {waiters : List Nat}
    (found : state.tasks.role? task = some (.drive home waiters .settling))
    (same : Path.same home root = true) (flight : Flight) :
    none = some flight ↔ state.tasks.Flies root flight := by
  rw [reached.flies_iff found same nofun]
  obtain ⟨task', waiters', outcome'⟩ := flight
  cases outcome' <;> simp [Flight.leg]

/-- Nobody does an analysis of an idle root. -/
theorem Reachable.idle_iff (reached : Reachable setup { shared } state) {root : String}
    (idle : (state.slots.get root).running = false) (flight : Flight) :
    none = some flight ↔ state.tasks.Flies root flight := by
  constructor
  · nofun
  · rintro ⟨spelling, same, flying⟩
    have none := reached.grounded idle flying
    rw [flight.drives_role same] at none
    cases none

theorem State.queue_of_pending {home root : String} {pending : Pending}
    (waits : (state.slots.get home).pending = some pending) (same : Path.same home root = true) :
    state.queue root = pending.waiters := by
  rw [Slots.get_congr same] at waits
  exact Slots.waitersOf_of_pending waits

/-- Who waits at a root after the slot of one was set. -/
theorem State.waitersOf_set (state : State) (home root : String) (slot : Slot) :
    Slots.waitersOf ((state.slots.set home slot).get root) =
      if Path.same home root then Slots.waitersOf slot else state.queue root := by
  rw [Slots.get_set]
  split <;> rfl

/-- A task at work on a root makes one entry, about that root. The entry takes the analysis there
from one stand to another, and nothing changes at other roots. -/
theorem Recorded.act {home root : String} {task : Nat} {old new : Task} {entry : Entry}
    {slots : Slots} {before after : Option Flight} {queue : List Nat} (h : Recorded state root)
    (found : state.tasks.get? task = some old)
    (low : Path.same home root = false → old.role.aloft root = false)
    (high : Path.same home root = false → new.role.aloft root = false)
    (noted : entry.concerns root = Path.same home root)
    (waits : Slots.waitersOf (slots.get root) =
      if Path.same home root then queue else state.queue root)
    (turns : Path.same home root = true →
      (∀ flight, before = some flight ↔ state.tasks.Flies root flight) ∧
      (∀ flight, after = some flight ↔ (state.tasks.update task new).Flies root flight) ∧
      Ledger.Follows ⟨state.queue root, before⟩ [entry] ⟨queue, after⟩) :
    Recorded { state with
      slots
      tasks := state.tasks.update task new
      journal := state.journal ++ [entry] } root := by
  cases same : Path.same home root with
  | true =>
    obtain ⟨was, now, follows⟩ := turns same
    refine h.turn [entry] queue ?_ ?_ was now follows
    · simp [State.journalOf, noted, same]
    · exact waits.trans (if_pos same)
  | false =>
    refine h.frame ?_ ?_ (Tasks.flies_update found (low same) (high same))
    · simp [State.journalOf, noted, same]
    · exact waits.trans (if_neg (by simp [same]))

/-- A task starts the pending analysis of a root of which no analysis is under way. -/
theorem Recorded.start {home root : String} {task : Nat} {old : Task} {pending : Pending}
    {running : Bool} (h : Recorded state root) (found : state.tasks.get? task = some old)
    (low : old.role.aloft root = false) (waits : (state.slots.get home).pending = some pending)
    (any : pending.waiters ≠ [])
    (was : Path.same home root = true →
      ∀ flight, none = some flight ↔ state.tasks.Flies root flight)
    (reached : Reachable setup { shared } { state with
      slots := state.slots.set home ⟨running, none⟩
      tasks := state.tasks.update task (State.driveFrom home pending.waiters)
      journal := state.journal ++ [.started home task pending.waiters] }) :
    Recorded { state with
      slots := state.slots.set home ⟨running, none⟩
      tasks := state.tasks.update task (State.driveFrom home pending.waiters)
      journal := state.journal ++ [.started home task pending.waiters] } root := by
  refine h.act found (fun _ => low) (fun same => same) rfl (state.waitersOf_set ..) fun same =>
    ⟨was same, reached.flying_iff none (Tasks.role?_update_self found _) same, ?_⟩
  rw [State.queue_of_pending waits same]
  exact .single (.started home task any)

/-- Every step keeps the record of a root. -/
theorem recorded_kept (reached : Reachable setup { shared } state)
    (reached' : Reachable setup { shared } next) (move : Move state actor next)
    {root : String} (h : Recorded state root) : Recorded next root := by
  have numbered := reached.numbered
  have timed := reached.timed
  cases move with
  | share => exact h
  | issue path => exact h.frame rfl rfl (numbered.flies_append rfl)
  | enter task calm =>
    refine h.frame rfl rfl (numbered.flies_append ?_)
    rcases calm with calm | calm
    · rw [calm]
      rfl
    · rw [calm]
      rfl
  | onward found task shared same => exact h.frame rfl rfl (Tasks.flies_onward found same)
  | retire found shared calm =>
    refine h.frame rfl rfl (Tasks.flies_remove found ?_)
    rcases calm with calm | calm | calm
    · rw [calm]
      rfl
    · rw [calm]
      rfl
    · rw [calm]
      rfl
  | stale found => exact h.frame rfl rfl (Tasks.flies_remove found rfl)
  | close found | cancelled found => exact h.frame rfl rfl (Tasks.flies_update found rfl rfl)
  | refuse found | abandon found =>
    refine h.frame ?_ rfl (Tasks.flies_remove found rfl)
    simp [State.journalOf, Entry.concerns]
  | @ripen task home pending found waits =>
    refine h.frame rfl ?_ (Tasks.flies_remove found rfl)
    unfold State.queue
    rw [Slots.get_set]
    split
    next same =>
      rw [Slots.get_congr same] at waits
      rw [Slots.waitersOf_of_pending waits]
      rfl
    · rfl
  | rest found =>
    refine h.frame rfl ?_ (Tasks.flies_remove found rfl)
    simp [State.queue, Slots.waitersOf, Slots.pending_set_flag]
  | cancel found =>
    refine h.frame ?_ rfl (timed.flies_cancel found root)
    simp [State.journalOf, Entry.concerns]
  | drain found =>
    refine h.extend [.drained] [] ?_ ?_ (Tasks.flies_update found rfl rfl) fun _ =>
      .single .drained
    · simp [State.journalOf, Entry.concerns]
    · simp [State.queue, Slots.get_drain, Slots.waitersOf_none]
  | @arriveBusy task id path home found busy =>
    cases same : Path.same home root with
    | true =>
      refine h.extend [.arrived home id] (state.queue root ++ [id]) ?_ ?_
        (timed.flies_arrive numbered found rfl) fun _ => .single (.arrived home id)
      · simp [State.journalOf, Entry.concerns, same]
      · simp [State.queue, Slots.get_set, same, Slots.waitersOf_some, Slots.get_congr same]
    | false =>
      refine h.frame ?_ ?_ (timed.flies_arrive numbered found rfl)
      · simp [State.journalOf, Entry.concerns, same]
      · simp [State.queue, Slots.get_set, same]
  | @arriveIdle task id path home found idle =>
    cases same : Path.same home root with
    | true =>
      have queue : state.queue home = state.queue root := by
        rw [State.queue, State.queue, Slots.get_congr same]
      have role := role?_newcomer numbered task (Slots.timerOf (state.slots.get home))
        (State.driveFrom home (state.queue home ++ [id]))
      rw [Slots.get_congr same] at idle
      refine h.turn ([.arrived home id] ++
        [.started home state.nextTask (state.queue home ++ [id])]) [] ?_ ?_
        (reached.idle_iff idle) (reached'.flying_iff none role same) ?_
      · simp [State.journalOf, Entry.concerns, same]
      · simp [State.queue, Slots.get_set, same, Slots.waitersOf_none]
      · rw [queue]
        exact (Ledger.Follows.single (.arrived home id)).snoc (.started home _ (by simp))
    | false =>
      refine h.frame ?_ ?_ (timed.flies_arrive numbered found (by simp [Role.aloft, same]))
      · simp [State.journalOf, Entry.concerns, same]
      · simp [State.queue, Slots.get_set, same]
  | @launch task home pending found waits idle =>
    have any := reached.nonempty home pending waits
    refine h.start found rfl waits any (fun same => reached.idle_iff ?_) reached'
    rw [← Slots.get_congr same, idle]
  | @again task home waiters pending found waits ripe up =>
    have any := reached.nonempty home pending waits
    exact h.start found rfl waits any (reached.settling_iff (Tasks.role?_of_get? found)) reached'
  | @land task home waiters outcome found =>
    have role := Tasks.role?_of_get? found
    have role' : Tasks.role? (state.tasks.update task (.drive home waiters (.answer outcome)))
        task = some (.drive home waiters (.landed outcome)) := Tasks.role?_update_self found _
    exact h.act found (fun same => same) (fun same => same) rfl (ite_self _).symm fun same =>
      ⟨reached.flying_iff none role same, reached'.flying_iff (some outcome) role' same,
        .single (.ended home outcome)⟩
  | @deliver task home waiters outcome found =>
    have role := Tasks.role?_of_get? found
    have role' : Tasks.role? (state.tasks.update task (.drive home [] .settle)) task =
        some (.drive home [] .settling) := Tasks.role?_update_self found _
    exact h.act found (fun same => same) (fun _ => rfl) rfl (ite_self _).symm fun same =>
      ⟨reached.flying_iff (some outcome) role same, reached'.settling_iff role' same,
        .single (.answered home)⟩
  | @giveUp task home waiters pending found waits ripe =>
    refine h.act found (fun same => same) (fun _ => rfl) rfl (state.waitersOf_set ..) fun same =>
      ⟨reached.flying_iff none (Tasks.role?_of_get? found) same, reached'.idle_iff ?_, ?_⟩
    · simp [Slots.get_set, same]
    · rw [State.queue_of_pending waits same]
      exact .single (.givenUp home)
  | @leave task home waiters found unripe =>
    refine h.act found (fun same => same) (fun _ => rfl) rfl (state.waitersOf_set ..) fun same =>
      ⟨reached.flying_iff none (Tasks.role?_of_get? found) same, reached'.idle_iff ?_, ?_⟩
    · simp [Slots.get_set, same]
    · have queue : Slots.waitersOf ⟨false, (state.slots.get home).pending⟩ = state.queue root := by
        rw [Slots.get_congr same]
        rfl
      rw [queue]
      exact .single (.left home)

theorem Reachable.recorded (reached : Reachable setup { shared } state) (root : String) :
    Recorded state root := by
  refine reached.induction ⟨{}, .nil, rfl, ?_⟩ ?_
  · intro flight
    exact ⟨nofun, fun ⟨_, _, flying⟩ => nomatch flying⟩
  · intro state next actor reached reached' h move
    exact recorded_kept reached reached' move h

end StyleMonitor.Coordinator
