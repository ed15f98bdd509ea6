import StyleMonitor.Proofs.Coordinator.Ledger
import StyleMonitor.Proofs.Coordinator.SingleFlight

/-!
# Where triggers are

From the moment it is issued until it is answered, a trigger is in one place: its own task, a
pending analysis, the task at work on its root, or the list of a shutdown. `Reachable.held` counts
it over all these places; whatever hands it on takes it out of one and puts it into another.
-/

namespace StyleMonitor.Coordinator

variable {setup : Setup} {shared : Shared} {state next : State} {actor : Option Nat}

/-! ### Counting a trigger -/

/-- Counts a trigger that has not arrived at a root yet. -/
@[grind]
def Role.afoot (waiter : Nat) : Role → Nat
  | trigger id => if id = waiter then 1 else 0
  | timer .. | drive .. | toggle | shutdown _ => 0

/-- How often the work on a root is to answer a trigger. -/
@[grind]
def Role.serves (waiter : Nat) : Role → Nat
  | drive _ waiters _ => waiters.count waiter
  | trigger _ | timer .. | toggle | shutdown _ => 0

/-- How often a shutdown is to let a trigger go. -/
@[grind]
def Role.releases (waiter : Nat) : Role → Nat
  | shutdown (.cancel drained) => (drained.flatMap (·.waiters)).count waiter
  | shutdown .start | shutdown .drain | shutdown .dispose => 0
  | trigger _ | timer .. | drive .. | toggle => 0

/-- How often a trigger is in the hands of a task. -/
@[grind]
def Role.holds (waiter : Nat) (role : Role) : Nat :=
  role.afoot waiter + role.serves waiter + role.releases waiter

/-- How often a trigger waits in a pending analysis. -/
def Slots.waits (slots : Slots) (waiter : Nat) : Nat :=
  slots.total fun slot => (waitersOf slot).count waiter

/-- The triggers that an entry answers. -/
@[grind]
def Entry.recipients : Entry → List Nat
  | refused waiter _ => [waiter]
  | answered _ _ waiters _ => waiters
  | brokenOff _ _ dropped => dropped
  | letGo waiters => waiters
  | arrived .. | started .. | ended .. | drained => []

/-- The triggers that are turned away with an entry. -/
@[grind]
def Entry.refusals : Entry → List Nat
  | refused waiter _ => [waiter]
  | arrived .. | started .. | ended .. | answered .. | brokenOff .. | drained | letGo _ => []

/-- How often a trigger is named by the entries of a journal. -/
def mentions (named : Entry → List Nat) (journal : List Entry) (waiter : Nat) : Nat :=
  (journal.flatMap named).count waiter

theorem map_answers (entry : Entry) : entry.answers.map (·.1) = entry.recipients := by
  have pairs : ∀ (waiters : List Nat) (outcome : Outcome),
      (waiters.map fun waiter => (waiter, outcome)).map (·.1) = waiters := by
    intro waiters outcome
    rw [List.map_map]
    exact List.map_id _
  cases entry with
  | answered => exact pairs _ _
  | brokenOff => exact pairs _ _
  | letGo => exact pairs _ _
  | _ => rfl

theorem count_answers (state : State) (waiter : Nat) :
    (state.answers.map (·.1)).count waiter = mentions Entry.recipients state.journal waiter := by
  rw [State.answers, List.map_flatMap, mentions]
  simp only [map_answers]

@[grind =]
theorem mentions_append (named : Entry → List Nat) (journal entries : List Entry)
    (waiter : Nat) : mentions named (journal ++ entries) waiter =
      mentions named journal waiter + mentions named entries waiter := by
  unfold mentions
  rw [List.flatMap_append, List.count_append]

@[grind =]
theorem mentions_singleton (named : Entry → List Nat) (entry : Entry) (waiter : Nat) :
    mentions named [entry] waiter = (named entry).count waiter := by
  rw [mentions, List.flatMap_singleton]

theorem mentions_pos (named : Entry → List Nat) {journal : List Entry} {entry : Entry}
    {waiter : Nat} (noted : entry ∈ journal) (h : waiter ∈ named entry) :
    0 < mentions named journal waiter :=
  List.count_pos_iff.mpr (List.mem_flatMap.mpr ⟨entry, noted, h⟩)

/-- No two entries name a trigger that is named once. -/
theorem mentions_inj {named : Entry → List Nat} {journal : List Entry} {first second : Entry}
    {waiter : Nat} (once : mentions named journal waiter ≤ 1) (noted : first ∈ journal)
    (noted' : second ∈ journal) (h : waiter ∈ named first) (h' : waiter ∈ named second) :
    first = second := by
  induction journal with
  | nil => cases noted
  | cons entry journal ih =>
    have split : mentions named (entry :: journal) waiter =
        (named entry).count waiter + mentions named journal waiter := by
      rw [← List.singleton_append, mentions_append, mentions_singleton]
    rcases List.mem_cons.mp noted with rfl | later
    · rcases List.mem_cons.mp noted' with rfl | later'
      · rfl
      · have := mentions_pos named later' h'
        have := List.count_pos_iff.mpr h
        omega
    · rcases List.mem_cons.mp noted' with rfl | later'
      · have := mentions_pos named later h
        have := List.count_pos_iff.mpr h'
        omega
      · exact ih (by omega) later later'

/-- A new slot for a root takes in and lets out what the change of its queue says. -/
theorem Slots.waits_set (slots : Slots) (root : String) (slot : Slot) (waiter : Nat) :
    waits (slots.set root slot) waiter + (waitersOf (slots.get root)).count waiter =
      slots.waits waiter + (waitersOf slot).count waiter :=
  total_set rfl slots root slot

/-- Whether a trigger, once it was issued, is in one place: in the hands of a task, in a pending
analysis, or among the answered ones. -/
def Held (state : State) (waiter : Nat) : Prop :=
  state.tasks.tally (Role.holds waiter) + state.slots.waits waiter +
    mentions Entry.recipients state.journal waiter = if waiter < state.nextTrigger then 1 else 0

/-! ### Every step keeps the count -/

/-- Once its triggers were answered, the work on a root has none in hand. -/
theorem Reachable.settled (reached : Reachable setup { shared } state) :
    ∀ task root waiters, state.tasks.role? task = some (.drive root waiters .settling) →
      waiters = [] := by
  refine reached.induction nofun ?_
  intro state next actor reached _ h move task root waiters found
  have numbered := reached.numbered
  cases move with
  | share => exact h task root waiters found
  | arriveIdle | arriveBusy =>
    by_cases new : task = state.nextTask
    · rw [new, role?_newcomer numbered] at found
      cases found
    · exact h task root waiters (role?_of_arrive numbered new found)
  | cancel cancels =>
    rw [Tasks.role?_update, Tasks.role?_of_get? (reached.timed.get?_cancel cancels)] at found
    split at found
    · cases found
    · exact h task root waiters (Tasks.role?_of_cancelTimer found)
  | _ => grind

attribute [local grind =] Slots.waitersOf_none Slots.waitersOf_some State.queue in
attribute [local grind →] Slots.waitersOf_of_pending in
theorem Held.kept {waiter : Nat} (h : Held state waiter)
    (reached : Reachable setup { shared } state) (move : Move state actor next) :
    Held next waiter := by
  unfold Held at h ⊢
  have numbered := reached.numbered
  have timed := reached.timed
  have untimed : ∀ home id, Role.holds waiter (.timer home id) = 0 := fun _ _ => rfl
  have set := state.slots.waits_set
  cases move with
  | share => exact h
  | issue path =>
    rw [Tasks.tally_append]
    grind
  | enter task calm =>
    rw [Tasks.tally_enter calm rfl rfl]
    exact h
  | onward found task _ same =>
    rw [numbered.tally_onward found same]
    exact h
  | @arriveIdle _ _ _ home found | @arriveBusy _ _ _ home found =>
    have sum := timed.tally_leave numbered untimed found home
    rw [Tasks.tally_append]
    grind
  | cancel found =>
    have sum := (numbered.cancelTimer _).tally_update (timed.get?_cancel found)
    have same := timed.tally_cancel numbered untimed found
    grind
  | drain found =>
    have sum := numbered.tally_update found
    have moved := state.slots.count_drain waiter
    have left := state.slots.total_drain waiter
    grind [Slots.waits]
  | again found =>
    have sum := numbered.tally_update found
    have empty := reached.settled _ _ _ (Tasks.role?_of_get? found)
    grind
  | rest found =>
    have sum := numbered.tally_remove found (Role.holds waiter)
    have empty := reached.settled _ _ _ (Tasks.role?_of_get? found)
    grind [Slots.waitersOf]
  | leave found =>
    have sum := numbered.tally_update found
    grind [Slots.waitersOf]
  | launch found | giveUp found | deliver found | land found | close found | cancelled found =>
    have sum := numbered.tally_update found
    grind
  | ripen found | refuse found | stale found | retire found | abandon found =>
    have sum := numbered.tally_remove found (Role.holds waiter)
    grind

/-- A trigger that was issued is in one place. -/
theorem Reachable.held (reached : Reachable setup { shared } state) (waiter : Nat) :
    Held state waiter := by
  refine reached.induction rfl ?_
  intro state next actor reached _ h move
  exact h.kept reached move

/-- A trigger that was issued has yet to arrive, has arrived once, or was turned away. -/
theorem Reachable.issued (reached : Reachable setup { shared } state) (waiter : Nat) :
    state.tasks.tally (Role.afoot waiter) + mentions Entry.arrivals state.journal waiter +
      mentions Entry.refusals state.journal waiter =
        if waiter < state.nextTrigger then 1 else 0 := by
  refine reached.induction rfl ?_
  intro state next actor reached _ h move
  have numbered := reached.numbered
  have timed := reached.timed
  have untimed : ∀ home id, Role.afoot waiter (.timer home id) = 0 := fun _ _ => rfl
  cases move with
  | share => exact h
  | issue path =>
    rw [Tasks.tally_append]
    grind
  | enter task calm =>
    rw [Tasks.tally_enter calm rfl rfl]
    exact h
  | onward found task _ same =>
    rw [numbered.tally_onward found same]
    exact h
  | @arriveIdle _ _ _ home found | @arriveBusy _ _ _ home found =>
    have sum := timed.tally_leave numbered untimed found home
    rw [Tasks.tally_append]
    grind
  | cancel found =>
    have sum := (numbered.cancelTimer _).tally_update (timed.get?_cancel found)
    have same := timed.tally_cancel numbered untimed found
    grind
  | launch found | land found | deliver found | again found | giveUp found | leave found
  | close found | drain found | cancelled found =>
    have sum := numbered.tally_update found
    grind
  | retire found | refuse found | ripen found | stale found | rest found | abandon found =>
    have sum := numbered.tally_remove found (Role.afoot waiter)
    grind

/-- A trigger that arrived is in one place: a pending analysis, the work on a root, the list of a
shutdown, or among the answered ones. -/
theorem Reachable.one_place (reached : Reachable setup { shared } state) {root : String}
    {waiter : Nat} (arrived : .arrived root waiter ∈ state.journal) :
    state.slots.waits waiter + state.tasks.tally (Role.serves waiter) +
      state.tasks.tally (Role.releases waiter) + (state.answers.map (·.1)).count waiter = 1 := by
  have held := reached.held waiter
  have issued := reached.issued waiter
  have once := mentions_pos Entry.arrivals arrived (List.mem_singleton_self waiter)
  have split : state.tasks.tally (Role.holds waiter) = state.tasks.tally (Role.afoot waiter) +
      state.tasks.tally (Role.serves waiter) + state.tasks.tally (Role.releases waiter) := by
    rw [← Tasks.tally_add, ← Tasks.tally_add]
    rfl
  unfold Held at held
  rw [count_answers]
  split at issued <;> split at held <;> omega

/-- No trigger is answered twice. -/
theorem Reachable.answers_nodup (reached : Reachable setup { shared } state) :
    (state.answers.map (·.1)).Nodup := by
  refine List.nodup_iff_count_le_one.mpr ?_
  intro waiter
  have held := reached.held waiter
  unfold Held at held
  rw [count_answers]
  split at held <;> omega

end StyleMonitor.Coordinator
