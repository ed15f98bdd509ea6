import StyleMonitor.Proofs.Coordinator.Answers
import StyleMonitor.Proofs.Coordinator.Histories

/-!
# The last trigger sets the time

A trigger that arrives at a root under analysis starts a timer of its own, and the pending analysis
carries the number of that timer only. So a pending analysis becomes ready, or is started by its
timer or by the work on its root, only when the time of the timer has run out that the last trigger
started. A timer whose place another trigger took does nothing any more, even if its time had run
out by then.
-/

namespace StyleMonitor.Coordinator

variable {setup : Setup} {shared : Shared} {start state next armed : State} {event : Event}
  {events since : List Event} {actor : Option Nat} {root : String} {id timer : Nat}
  {pending : Pending}

/-- The triggers that arrived at a root so far. -/
def State.arrivals (state : State) (root : String) : List Nat :=
  (state.journalOf root).flatMap Entry.arrivals

/-- Entries with which no trigger arrives add nothing. -/
theorem State.arrivals_eq {entries : List Entry} (noted : next.journal = state.journal ++ entries)
    (quiet : ∀ entry ∈ entries, entry.arrivals = []) (root : String) :
    next.arrivals root = state.arrivals root := by
  have none : (entries.filter (·.concerns root)).flatMap Entry.arrivals = [] :=
    List.flatMap_eq_nil_iff.mpr fun entry member => quiet entry (List.mem_of_mem_filter member)
  rw [arrivals, journalOf, noted, List.filter_append, List.flatMap_append, none, List.append_nil]
  rfl

/-- What a step does to the pending analysis of a root. With a trigger that arrives there a new one
takes its place or none does; otherwise it stays, goes, or is made ready by its timer. -/
theorem Move.arrives_or_keeps (move : Move state actor next)
    (numbered : state.tasks.Numbered state.nextTask) (root : String) :
    (∃ waiter, next.arrivals root = state.arrivals root ++ [waiter] ∧
      ∀ pending, (next.slots.get root).pending = some pending →
        pending.id = state.nextPending ∧ pending.timer = some state.nextTask ∧
        ∃ spelling, next.tasks.get? state.nextTask = some (.timer spelling pending.id false)) ∨
    (next.arrivals root = state.arrivals root ∧
      ∀ pending, (next.slots.get root).pending = some pending →
        (state.slots.get root).pending = some pending ∨
        ∃ old task spelling, (state.slots.get root).pending = some old ∧
          pending = { old with timer := none } ∧
          state.tasks.get? task = some (.timer spelling old.id true)) := by
  cases move with
  | @arriveIdle _ id _ home found idle =>
    by_cases same : Path.same home root = true
    · refine Or.inl ⟨id, ?_, ?_⟩
      · simp [State.arrivals, State.journalOf, Entry.concerns, Entry.arrivals, same]
      · simp [Slots.get_set, same]
    · refine Or.inr ⟨?_, fun pending waits => Or.inl ?_⟩
      · simp [State.arrivals, State.journalOf, Entry.concerns, same]
      · simpa [Slots.get_set, same] using waits
  | @arriveBusy _ id _ home found busy =>
    by_cases same : Path.same home root = true
    · refine Or.inl ⟨id, ?_, ?_⟩
      · simp [State.arrivals, State.journalOf, Entry.concerns, Entry.arrivals, same]
      · intro pending waits
        rw [Slots.get_set, if_pos same] at waits
        cases waits
        refine ⟨rfl, rfl, home, ?_⟩
        rw [((numbered.remove _).cancelTimer _).get?_append, if_pos rfl]
    · refine Or.inr ⟨?_, fun pending waits => Or.inl ?_⟩
      · simp [State.arrivals, State.journalOf, Entry.concerns, same]
      · simpa [Slots.get_set, same] using waits
  | @ripen task home old found waits busy =>
    refine Or.inr ⟨rfl, fun pending now => ?_⟩
    rw [Slots.get_set] at now
    split at now
    next same =>
      cases now
      rw [Slots.get_congr same] at waits
      exact Or.inr ⟨old, task, home, waits, rfl, found⟩
    · exact Or.inl now
  | launch | again | giveUp =>
    refine Or.inr ⟨State.arrivals_eq rfl (by simp [Entry.arrivals]) root, fun pending waits => ?_⟩
    rw [Slots.get_set] at waits
    split at waits
    · cases waits
    · exact Or.inl waits
  | rest =>
    refine Or.inr ⟨rfl, fun pending waits => Or.inl ?_⟩
    rwa [Slots.pending_set_flag] at waits
  | leave =>
    refine Or.inr ⟨State.arrivals_eq rfl (by simp [Entry.arrivals]) root,
      fun pending waits => Or.inl ?_⟩
    rwa [Slots.pending_set_flag] at waits
  | drain =>
    refine Or.inr ⟨State.arrivals_eq rfl (by simp [Entry.arrivals]) root, fun pending waits => ?_⟩
    rw [Slots.get_drain] at waits
    cases waits
  | refuse | land | deliver | abandon | cancel =>
    exact Or.inr ⟨State.arrivals_eq rfl (by simp [Entry.arrivals]) root,
      fun pending waits => Or.inl waits⟩
  | share | issue | enter | onward | retire | stale | close | cancelled =>
    exact Or.inr ⟨rfl, fun pending waits => Or.inl waits⟩

/-- A timer carries a number that was given. -/
theorem Timed.lt_of_timer (timed : Timed state) {spelling : String}
    (role : state.tasks.role? timer = some (.timer spelling id)) : id < state.nextPending := by
  have single := Nat.le_trans (Tasks.le_tally role (Role.carries id)) (timed.single id)
  by_contra past
  rw [if_neg past] at single
  simp [Role.carries] at single

/-! ### The timer of the last trigger -/

/-- In a row of events a trigger arrives at a root, and the pending analysis that it leaves there
waits for this timer. The state was `armed` then, and `since` are the events after that. -/
inductive Armed (setup : Setup) (start : State) (root : String) (timer : Nat) :
    List Event → State → List Event → Prop where
  | intro {before since : List Event} {event : Event} {earlier armed : State} {waiter : Nat}
    {pending : Pending} (ran : run setup start before = some earlier)
    (happens : step setup earlier event = some armed)
    (arrives : armed.arrivals root = earlier.arrivals root ++ [waiter])
    (waits : (armed.slots.get root).pending = some pending) (held : pending.timer = some timer) :
    Armed setup start root timer (before ++ event :: since) armed since

theorem Armed.snoc (armed' : Armed setup start root timer events armed since) (event : Event) :
    Armed setup start root timer (events ++ [event]) armed (since ++ [event]) := by
  cases armed' with
  | intro ran happens arrives waits held =>
    rw [List.append_assoc, List.cons_append]
    exact .intro ran happens arrives waits held

/-- Whether the last trigger that arrived at a root started a timer, and its time has run out
since. -/
def Rested (setup : Setup) (start : State) (events : List Event) (state : State) (root : String) :
    Prop :=
  ∃ timer armed since, Armed setup start root timer events armed since ∧
    state.arrivals root = armed.arrivals root ∧ .elapse timer ∈ since

/-- What is known of a pending analysis of a root: the last trigger that arrived there started the
timer that alone carries its number. -/
structure Watched (setup : Setup) (start : State) (events : List Event) (state : State)
    (root : String) (pending : Pending) (timer : Nat) (armed : State) (since : List Event) :
    Prop where
  started : Armed setup start root timer events armed since
  last : state.arrivals root = armed.arrivals root
  sole : ∀ other spelling elapsed,
    state.tasks.get? other = some (.timer spelling pending.id elapsed) →
    other = timer ∧ (elapsed = true → .elapse timer ∈ since)
  ripe : pending.timer = none → .elapse timer ∈ since

/-- A step that keeps the pending analysis of a root keeps what is known of it. -/
theorem Watched.kept {old : Pending} {state : State}
    (watched : Watched setup start events state root old timer armed since)
    (happens : step setup state event = some next) (numbered : state.tasks.Numbered state.nextTask)
    (known : old.id < state.nextPending) (quiet : next.arrivals root = state.arrivals root)
    (same : pending.id = old.id)
    (ripe : pending.timer = none → old.timer = none ∨
      ∃ task spelling, state.tasks.get? task = some (.timer spelling old.id true)) :
    Watched setup start (events ++ [event]) next root pending timer armed (since ++ [event]) where
  started := watched.started.snoc event
  last := quiet.trans watched.last
  sole other spelling elapsed found := by
    rw [same] at found
    rcases (move_of_step happens).timer_known numbered (Tasks.role?_of_get? found) with
      role | ⟨new, _⟩
    · obtain ⟨task, before, equal⟩ := Option.map_eq_some_iff.mp role
      cases task with
      | timer =>
        cases equal
        obtain ⟨own, elapsed'⟩ := watched.sole _ _ _ before
        refine ⟨own, ?_⟩
        rintro rfl
        rcases elapsed_of_step happens numbered found with earlier | now
        · exact List.mem_append_left _ ((watched.sole _ _ _ earlier).2 rfl)
        · rw [now, own]
          exact List.mem_append_right _ (List.mem_singleton_self _)
      | _ => cases equal
    · exact absurd new (Nat.ne_of_lt known)
  ripe none := by
    refine List.mem_append_left _ ?_
    rcases ripe none with before | ⟨task, spelling, elapsed⟩
    · exact watched.ripe before
    · exact (watched.sole _ _ _ elapsed).2 rfl

/-- Every pending analysis is watched by the timer of the last trigger that arrived at its root. -/
theorem watched_of_run (ran : run setup { shared } events = some state) :
    ∀ root pending, (state.slots.get root).pending = some pending →
      ∃ timer armed since,
        Watched setup { shared } events state root pending timer armed since := by
  refine run_induction ran nofun ?_
  intro before event state next ran happens ih root pending waits
  have reached : Reachable setup { shared } state := ⟨before, ran⟩
  have numbered := reached.numbered
  rcases (move_of_step happens).arrives_or_keeps numbered root with
    ⟨waiter, arrives, fresh⟩ | ⟨quiet, kept⟩
  · obtain ⟨new, held, spelling, starts⟩ := fresh pending waits
    refine ⟨state.nextTask, next, [], .intro ran happens arrives waits held, rfl, ?_, ?_⟩
    · intro other home elapsed found
      rcases (move_of_step happens).timer_known numbered (Tasks.role?_of_get? found) with
        role | ⟨_, rfl⟩
      · -- Nobody has carried the new number before.
        exact absurd new (Nat.ne_of_lt (reached.timed.lt_of_timer role))
      · rw [starts] at found
        cases found
        exact ⟨rfl, nofun⟩
    · intro none
      rw [held] at none
      cases none
  · rcases kept pending waits with before | ⟨old, task, spelling, before, rfl, elapsed⟩
    · obtain ⟨timer, armed, since, watched⟩ := ih root pending before
      exact ⟨timer, armed, _, watched.kept happens numbered (reached.timed.known root _ before)
        quiet rfl Or.inl⟩
    · obtain ⟨timer, armed, since, watched⟩ := ih root old before
      exact ⟨timer, armed, _, watched.kept happens numbered (reached.timed.known root _ before)
        quiet rfl fun _ => Or.inr ⟨task, spelling, elapsed⟩⟩

theorem Watched.rested (watched : Watched setup start events state root pending timer armed since)
    (elapsed : .elapse timer ∈ since) : Rested setup start events state root :=
  ⟨timer, armed, since, watched.started, watched.last, elapsed⟩

/-- Whoever starts a pending analysis does so when the time of the last trigger has run out. -/
theorem rested_of_started (ran : run setup { shared } events = some state)
    (happens : step setup state event = some next) {entries : List Entry}
    (noted : next.journal = state.journal ++ entries) {task : Nat} {waiters : List Nat}
    (starts : .started root task waiters ∈ entries)
    (quiet : ∀ spelling waiter, .arrived spelling waiter ∉ entries) :
    Rested setup { shared } events state root := by
  have reached : Reachable setup { shared } state := ⟨events, ran⟩
  have none : ∀ {entry : Entry}, entry.starts = [] → next.journal = state.journal ++ [entry] →
      False := by
    intro entry none equal
    rw [equal] at noted
    cases List.append_cancel_left noted
    cases List.mem_singleton.mp starts
    cases none
  have idle : next.journal = state.journal → False := by
    intro equal
    rw [equal] at noted
    rw [List.self_eq_append_right.mp noted] at starts
    cases starts
  have move := move_of_step happens
  generalize event.actor? = actor at move
  cases move with
  | share | issue | enter | onward | retire | ripen | stale | rest | close | cancelled =>
    exact (idle rfl).elim
  | refuse | arriveBusy | land | deliver | giveUp | leave | abandon | drain | cancel =>
    exact (none rfl rfl).elim
  | @arriveIdle _ id _ home =>
    rw [List.append_assoc] at noted
    cases List.append_cancel_left noted
    exact absurd List.mem_cons_self (quiet home id)
  | launch found waits =>
    cases List.append_cancel_left noted
    cases List.mem_singleton.mp starts
    obtain ⟨timer, armed, since, watched⟩ := watched_of_run ran _ _ waits
    exact watched.rested ((watched.sole _ _ _ found).2 rfl)
  | again found waits ripe =>
    cases List.append_cancel_left noted
    cases List.mem_singleton.mp starts
    obtain ⟨timer, armed, since, watched⟩ := watched_of_run ran _ _ waits
    exact watched.rested (watched.ripe ripe)

/-! ### Timers whose place another trigger took -/

/-- After a row of events, no trigger has arrived at a root meanwhile, or the pending analysis of
the root has a number that was not given before. -/
theorem replaced_of_run (reached : Reachable setup { shared } armed)
    (known : id < armed.nextPending) (ran : run setup armed since = some state) :
    id < state.nextPending ∧
      (state.arrivals root = armed.arrivals root ∨
        ∀ pending, (state.slots.get root).pending = some pending → pending.id ≠ id) := by
  refine run_induction ran ⟨known, Or.inl rfl⟩ ?_
  rintro before event state next ran happens ⟨known, last⟩
  have reached := reached.of_run ran
  have move := move_of_step happens
  refine ⟨Nat.lt_of_lt_of_le known move.nextPending_le, ?_⟩
  rcases move.arrives_or_keeps reached.numbered root with ⟨waiter, arrives, fresh⟩ | ⟨quiet, kept⟩
  · right
    intro pending waits
    rw [(fresh pending waits).1]
    exact Nat.ne_of_gt known
  · refine last.imp (fun last => quiet.trans last) fun other pending waits => ?_
    rcases kept pending waits with before | ⟨old, _, _, before, rfl, _⟩
    · exact other pending before
    · exact other old before

/-- A timer that is there after a row of events, and was given its number before, has been the same
timer all the while. -/
theorem timer_of_run (reached : Reachable setup { shared } armed) (old : timer < armed.nextTask)
    (ran : run setup armed since = some state) {spelling : String} : timer < state.nextTask ∧
      (state.tasks.role? timer = some (.timer spelling id) →
        armed.tasks.role? timer = some (.timer spelling id)) := by
  refine run_induction ran ⟨old, fun role => role⟩ ?_
  rintro before event state next ran happens ⟨old, same⟩
  have move := move_of_step happens
  refine ⟨Nat.lt_of_lt_of_le old move.nextTask_le, fun role => ?_⟩
  rcases move.timer_known (reached.of_run ran).numbered role with role | ⟨_, new⟩
  · exact same role
  · exact absurd new (Nat.ne_of_lt old)

/-- A timer that finds another pending analysis in the place of its own ends, and that is all. -/
theorem step_of_replaced {spelling : String} {elapsed : Bool}
    (found : state.tasks.get? timer = some (.timer spelling id elapsed))
    (replaced : ∀ pending, (state.slots.get spelling).pending = some pending → pending.id ≠ id)
    (happens : step setup state (.step timer) = some next) : next = state.endTask timer := by
  have acts : state.stepTask setup timer (.timer spelling id elapsed) = some next := by
    simpa [step, State.task?, found] using happens
  cases elapsed with
  | false => cases acts
  | true =>
    simp only [State.stepTask, State.stepTimer, Slots.elapse_of_replaced replaced] at acts
    exact (Option.some.inj acts).symm

/-- A timer after which another trigger arrived at the root does nothing but end. -/
theorem Armed.step_eq (armed' : Armed setup { shared } root timer events armed since)
    (ran : run setup { shared } events = some state)
    (later : state.arrivals root ≠ armed.arrivals root) {spelling : String} {elapsed : Bool}
    (found : state.tasks.get? timer = some (.timer spelling id elapsed))
    (happens : step setup state (.step timer) = some next) : next = state.endTask timer := by
  cases armed' with
  | @intro before _ event earlier _ waiter pending came arms arrives waits held =>
    have reached : Reachable setup { shared } armed := ⟨before ++ [event], run_snoc came arms⟩
    obtain ⟨home, same, role⟩ := reached.timed.armed root pending timer waits held
    have rest := of_run_append_cons ran came arms
    have role' := (timer_of_run reached (reached.numbered.role?_lt role) rest).2
      (Tasks.role?_of_get? found)
    rw [role] at role'
    cases role'
    refine step_of_replaced found ?_ happens
    rw [Slots.get_congr same]
    exact (replaced_of_run reached (reached.timed.lt_of_timer role) rest).2.resolve_left later

/-- In every state that can come about, the last trigger that arrived at a root has started a timer
whose time has run out, if the pending analysis of the root is ready or if a step starts it that is
no arrival; and the timer of a trigger after which another one arrived at the root does nothing with
its step but end. -/
theorem last_trigger_sets_the_time (ran : run setup { shared } events = some state) :
    (∀ root pending, (state.slots.get root).pending = some pending → pending.timer = none →
      Rested setup { shared } events state root) ∧
    (∀ event next entries root task waiters, step setup state event = some next →
      next.journal = state.journal ++ entries → .started root task waiters ∈ entries →
      (∀ spelling waiter, .arrived spelling waiter ∉ entries) →
        Rested setup { shared } events state root) ∧
    (∀ root timer armed since, Armed setup { shared } root timer events armed since →
      state.arrivals root ≠ armed.arrivals root → ∀ spelling pending elapsed next,
      state.tasks.get? timer = some (.timer spelling pending elapsed) →
      step setup state (.step timer) = some next → next = state.endTask timer) := by
  refine ⟨?_, ?_, ?_⟩
  · intro root pending waits ripe
    obtain ⟨timer, armed, since, watched⟩ := watched_of_run ran root pending waits
    exact watched.rested (watched.ripe ripe)
  · intro event next entries root task waiters happens noted starts quiet
    exact rested_of_started ran happens noted starts quiet
  · intro root timer armed since started later spelling pending elapsed next found happens
    exact started.step_eq ran later found happens

/-- A trigger arrives while a root is analyzed. -/
def overtaken : List Event :=
  [.trigger "/a", .step 0, .step 0, .step 0, .step 0,
    .trigger "/a", .step 2, .step 2, .step 2]

/-- The time of its timer runs out, but another trigger arrives before the timer has done its work.
The time of the second timer runs out as well, and it makes the pending analysis ready. -/
def overtaking : List Event :=
  [.elapse 3, .trigger "/a", .step 4, .step 4, .step 4, .step 4, .elapse 5, .step 5]

theorem last_trigger_sets_the_time_overtaken : ∃ state,
    run oneRoot { shared := fresh } (overtaken ++ .step 2 :: overtaking) = some state ∧
    (state.slots.get "/a").pending = some ⟨1, none, [1, 2]⟩ ∧
    Rested oneRoot { shared := fresh } (overtaken ++ .step 2 :: overtaking) state "/a" ∧
    state.tasks.get? 3 = some (.timer "/a" 0 true) ∧
    ∀ next, step oneRoot state (.step 3) = some next → next = state.endTask 3 := by
  have ran : run oneRoot { shared := fresh } (overtaken ++ .step 2 :: overtaking) = some _ := rfl
  obtain ⟨ready, _, replaced⟩ := last_trigger_sets_the_time ran
  refine ⟨_, ran, rfl, ready "/a" ⟨1, none, [1, 2]⟩ rfl rfl, rfl, ?_⟩
  intro next happens
  have armed : Armed oneRoot { shared := fresh } "/a" 3 (overtaken ++ .step 2 :: overtaking) _
      overtaking :=
    @Armed.intro oneRoot _ "/a" 3 overtaken overtaking (.step 2) _ _ 1 ⟨0, some 3, [1]⟩
      rfl rfl rfl rfl rfl
  exact replaced "/a" 3 _ overtaking armed (by decide) "/a" 0 true next rfl happens

end StyleMonitor.Coordinator
