import StyleMonitor.Proofs.Analysis.Faults
import StyleMonitor.Proofs.Coordinator.Effects

/-!
# What the user is told

The user is told of failures, and of nothing else. `notices` lists the failures that a row of events
tells the user of, each with the analysis it is of, and `notes_of_run` says that the list is what
the user has seen after it.
-/

namespace StyleMonitor.Coordinator

variable {setup : Setup} {start state middle next final : State} {event : Event}
  {events before after : List Event}

/-- The moment at which the user is told of the failure of an analysis: the call of the `Notifier`
in `Inner::analyze`. -/
def Notifies (task : Nat) (root : String) (waiters : List Nat) (message : String) (state : State)
    (event : Event) : Prop :=
  event = .step task ∧
    state.tasks.get? task = some (.drive root waiters (.analyze (.notify message)))

/-- A failure that the user is told of, and the analysis it is of. -/
structure Notice where
  task : Nat
  root : String
  waiters : List Nat
  message : String
  deriving DecidableEq

/-- Whether the failure is that of an analysis. -/
def Notice.Of (task : Nat) (root : String) (waiters : List Nat) (notice : Notice) : Prop :=
  notice.task = task ∧ notice.root = root ∧ notice.waiters = waiters

instance (task : Nat) (root : String) (waiters : List Nat) :
    DecidablePred (Notice.Of task root waiters) :=
  fun notice => inferInstanceAs
    (Decidable (notice.task = task ∧ notice.root = root ∧ notice.waiters = waiters))

/-- The failure that the user is told of by an event. -/
def notice? (state : State) : Event → Option Notice
  | .step task =>
    match state.tasks.get? task with
    | some (.drive root waiters (.analyze (.notify message))) => some ⟨task, root, waiters, message⟩
    | _ => none
  | _ => none

/-- The failures that the user is told of in a row of events, in order. -/
def notices (setup : Setup) : State → List Event → List Notice
  | _, [] => []
  | state, event :: rest =>
    (notice? state event).toList ++
      match step setup state event with
      | some next => notices setup next rest
      | none => []

theorem notice?_eq_some : notice? state event = some notice ↔
    Notifies notice.task notice.root notice.waiters notice.message state event := by
  constructor
  · intro told
    cases event with
    | step task =>
      simp only [notice?] at told
      split at told
      · next found =>
        cases told
        exact ⟨rfl, found⟩
      · cases told
    | _ => cases told
  · rintro ⟨rfl, found⟩
    simp only [notice?, found]

/-! ### What a step tells the user, and what a run -/

/-- The user is told of a failure at its moment, and of nothing at any other. -/
theorem notes_of_step (happens : step setup state event = some next) :
    next.shared.notes = state.shared.notes ++ (notice? state event).toList.map fun notice =>
      "Coding style check failed: " ++ notice.message := by
  cases told : notice? state event with
  | some notice =>
    obtain ⟨rfl, found⟩ := notice?_eq_some.mp told
    cases stride_of_step happens found rfl with
    | turn acts =>
      cases acts
      rfl
  | none =>
    rw [Option.toList_none, List.map_nil, List.append_nil]
    have effect := effect_of_step happens
    generalize next.shared = after at effect
    cases effect with
    | turn found acts =>
      refine Analysis.notes_of_step acts ?_
      rintro message rfl
      rw [notice?, found] at told
      cases told
    | breakOff =>
      rw [Shared.releaseBy]
      split <;> rfl
    | _ => rfl

theorem notices_snoc (ran : run setup start before = some middle) :
    notices setup start (before ++ [event]) =
      notices setup start before ++ (notice? middle event).toList := by
  induction before generalizing start with
  | nil =>
    cases ran
    rw [List.nil_append, notices, notices, List.nil_append]
    split
    · rw [notices, List.append_nil]
    · rw [List.append_nil]
  | cons first rest ih =>
    obtain ⟨_, happens, ran⟩ := Option.bind_eq_some_iff.mp ran
    simp only [List.cons_append, notices, happens, ih ran, List.append_assoc]

/-- What the user has seen after a row of events. -/
theorem notes_of_run (ran : run setup start events = some final) :
    final.shared.notes = start.shared.notes ++ (notices setup start events).map fun notice =>
      "Coding style check failed: " ++ notice.message := by
  refine run_induction ran ?_ ?_
  · rw [notices, List.map_nil, List.append_nil]
  · intro before event middle next ran happens ih
    rw [notes_of_step happens, ih, notices_snoc ran, List.map_append, List.append_assoc]

/-- The list has the failures whose moment there was. -/
theorem mem_notices (ran : run setup start events = some final) :
    notice ∈ notices setup start events ↔ Occurs setup start
      (Notifies notice.task notice.root notice.waiters notice.message) events := by
  refine run_induction ran ?_ ?_
  · exact iff_of_false List.not_mem_nil not_occurs_nil
  · intro before event middle next ran happens ih
    rw [notices_snoc ran, List.mem_append, ih, occurs_snoc ran, Option.mem_toList,
      notice?_eq_some]

end StyleMonitor.Coordinator
