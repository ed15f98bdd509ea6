import Mathlib.Algebra.GroupWithZero.Nat
import Mathlib.Data.List.Nodup
import StyleMonitor.Coordinator.Machine

/-!
# Tasks as others see them

A task's role is what the rest of the coordinator can tell of it. Most steps of a task do not
change its role. The lemmas here say what the operations on tasks do to the task of a number, and
to a sum over the roles of all tasks.
-/

namespace StyleMonitor.Coordinator

/-- How far the work on a root is, as far as others can tell. -/
inductive Leg where
  /-- An analysis is under way. -/
  | flying
  /-- An analysis has ended, and its triggers were not answered yet. -/
  | landed (outcome : Outcome)
  /-- The triggers were answered; the slot is to be seen to. -/
  | settling
  /-- The slot was seen to after an analysis broke off. -/
  | leaving
  deriving DecidableEq, Repr

/-- The leg that a phase of the work on a root belongs to. -/
def DrivePhase.leg : DrivePhase → Leg
  | analyze _ | broken => .flying
  | answer outcome => .landed outcome
  | settle => .settling
  | abandon => .leaving

/-- What others can tell of a task. -/
inductive Role where
  | trigger (id : Nat)
  | timer (root : String) (pending : Nat)
  | drive (root : String) (waiters : List Nat) (leg : Leg)
  | toggle
  | shutdown (phase : ShutdownPhase)
  deriving DecidableEq, Repr

/-- The role of a task. -/
def Task.role : Task → Role
  | trigger id _ _ => .trigger id
  | timer root pending _ => .timer root pending
  | drive root waiters phase => .drive root waiters phase.leg
  | toggle _ _ => .toggle
  | shutdown phase => .shutdown phase

@[simp, grind =]
theorem role_driveFrom (root : String) (waiters : List Nat) :
    (State.driveFrom root waiters).role = .drive root waiters .flying := rfl

namespace Tasks

variable {tasks : Tasks} {next id other : Nat} {task old : Task} {timer : Option Nat}
  {role role' : Role} {f : Role → Nat}

/-- The role of a task, if it is not over. -/
def role? (tasks : Tasks) (id : Nat) : Option Role :=
  (tasks.get? id).map Task.role

/-- A sum over the roles of all tasks. -/
def tally (f : Role → Nat) (tasks : Tasks) : Nat :=
  (tasks.map fun entry => f entry.2.role).sum

/-- The numbers of the tasks that add to a sum. -/
def numbers (f : Role → Nat) (tasks : Tasks) : List Nat :=
  (tasks.filter fun entry => f entry.2.role ≠ 0).map (·.1)

/-- No two tasks have the same number, and all numbers come before the next one. -/
structure Numbered (next : Nat) (tasks : Tasks) : Prop where
  nodup : (tasks.map (·.1)).Nodup
  below : ∀ entry ∈ tasks, entry.1 < next

theorem mem_of_get? (h : tasks.get? id = some task) : (id, task) ∈ tasks := by
  obtain ⟨before, after, equal, _⟩ := List.lookup_eq_some_iff.mp h
  rw [equal]
  exact List.mem_append_right _ List.mem_cons_self

theorem get?_of_mem (h : (tasks.map (·.1)).Nodup) (member : (id, task) ∈ tasks) :
    tasks.get? id = some task := by
  unfold get?
  induction tasks with
  | nil => cases member
  | cons entry tasks ih =>
    obtain ⟨key, first⟩ := entry
    obtain ⟨hkey, htasks⟩ := List.nodup_cons.mp h
    rcases List.mem_cons.mp member with equal | later
    · cases equal
      exact List.lookup_cons_self
    · have hne : id ≠ key := by
        intro equal
        exact hkey (List.mem_map.mpr ⟨_, later, equal⟩)
      rw [List.lookup_cons, beq_false_of_ne hne]
      exact ih htasks later

theorem Numbered.get?_lt (h : tasks.Numbered next) (found : tasks.get? id = some task) :
    id < next :=
  h.below _ (mem_of_get? found)

theorem Numbered.get?_next (h : tasks.Numbered next) : tasks.get? next = none := by
  cases found : tasks.get? next with
  | none => rfl
  | some task => exact absurd (h.get?_lt found) (Nat.lt_irrefl _)

/-! ### The task of a number -/

theorem get?_update (tasks : Tasks) (id other : Nat) (task : Task) :
    (tasks.update id task).get? other =
      if other = id then (tasks.get? id).map fun _ => task else tasks.get? other := by
  unfold get? update
  induction tasks with
  | nil => simp
  | cons entry tasks ih =>
    obtain ⟨key, first⟩ := entry
    by_cases hk : key = id
    · subst hk
      by_cases ho : other = key
      · simp [ho]
      · simpa [ho, List.lookup_cons, beq_false_of_ne ho] using ih
    · have hi : (id == key) = false := beq_false_of_ne (Ne.symm hk)
      by_cases ho : other = key
      · subst ho
        simp [hk]
      · simpa [hk, List.lookup_cons, beq_false_of_ne ho, hi] using ih

theorem get?_remove (tasks : Tasks) (id other : Nat) :
    (tasks.remove id).get? other = if other = id then none else tasks.get? other := by
  unfold get? remove
  induction tasks with
  | nil => simp
  | cons entry tasks ih =>
    obtain ⟨key, first⟩ := entry
    by_cases hk : key = id
    · subst hk
      by_cases ho : other = key
      · simpa [ho] using ih
      · simpa [ho, List.lookup_cons, beq_false_of_ne ho] using ih
    · by_cases ho : other = key
      · subst ho
        simp [hk]
      · simpa [hk, List.lookup_cons, beq_false_of_ne ho] using ih

theorem remove_of_get?_none (h : tasks.get? id = none) : tasks.remove id = tasks := by
  unfold get? at h
  unfold remove
  rw [List.filter_eq_self]
  intro entry member
  rw [decide_eq_true_eq]
  rintro rfl
  simpa using List.lookup_eq_none_iff.mp h entry member

theorem Numbered.get?_append (h : tasks.Numbered next) (task : Task) (other : Nat) :
    get? (tasks ++ [(next, task)]) other =
      if other = next then some task else tasks.get? other := by
  have hnext := h.get?_next
  unfold get? at hnext ⊢
  rw [List.lookup_append]
  by_cases ho : other = next
  · subst ho
    simp [hnext]
  · simp [ho, List.lookup_cons, beq_false_of_ne ho]

/-- A task that enters and ends leaves the others as they were. -/
theorem Numbered.remove_append (h : tasks.Numbered next) (task : Task) :
    remove next (tasks ++ [(next, task)]) = tasks := by
  have kept : tasks.remove next = tasks := remove_of_get?_none h.get?_next
  rw [remove] at kept ⊢
  rw [List.filter_append, kept]
  simp

/-- Cancelling a timer ends its task, or does nothing. -/
theorem cancelTimer_eq (timer : Option Nat) (tasks : Tasks) :
    tasks.cancelTimer timer = tasks ∨
      ∃ id, timer = some id ∧ tasks.cancelTimer timer = tasks.remove id := by
  cases timer with
  | none => exact Or.inl rfl
  | some id =>
    simp only [cancelTimer]
    split
    · exact Or.inl rfl
    · exact Or.inr ⟨id, rfl, rfl⟩

theorem get?_cancelTimer_of_ne (h : timer ≠ some other) :
    (tasks.cancelTimer timer).get? other = tasks.get? other := by
  rcases cancelTimer_eq timer tasks with equal | ⟨id, htimer, equal⟩
  · rw [equal]
  · rw [equal, get?_remove, if_neg]
    rintro rfl
    exact h htimer

/-! ### The role of a number -/

theorem role?_of_get? (h : tasks.get? id = some task) : tasks.role? id = some task.role := by
  rw [role?, h]
  rfl

theorem Numbered.role?_next (h : tasks.Numbered next) : tasks.role? next = none := by
  rw [role?, h.get?_next]
  rfl

theorem Numbered.role?_lt {role : Role} (h : tasks.Numbered next)
    (found : tasks.role? id = some role) : id < next := by
  obtain ⟨task, found, _⟩ := Option.map_eq_some_iff.mp found
  exact h.get?_lt found

theorem role?_update (tasks : Tasks) (id other : Nat) (task : Task) :
    (tasks.update id task).role? other =
      if other = id then (tasks.role? id).map fun _ => task.role else tasks.role? other := by
  unfold role?
  rw [get?_update]
  split
  · cases tasks.get? id <;> rfl
  · rfl

theorem role?_update_self (found : tasks.get? id = some old) (task : Task) :
    (tasks.update id task).role? id = some task.role := by
  rw [role?_update, if_pos rfl, role?_of_get? found, Option.map_some]

theorem role?_remove (tasks : Tasks) (id other : Nat) :
    (tasks.remove id).role? other = if other = id then none else tasks.role? other := by
  unfold role?
  rw [get?_remove]
  split <;> rfl

theorem Numbered.role?_append (h : tasks.Numbered next) (task : Task) (other : Nat) :
    role? (tasks ++ [(next, task)]) other =
      if other = next then some task.role else tasks.role? other := by
  unfold role?
  rw [h.get?_append]
  split <;> rfl

theorem role?_cancelTimer_of_ne (h : timer ≠ some other) :
    (tasks.cancelTimer timer).role? other = tasks.role? other := by
  unfold role?
  rw [get?_cancelTimer_of_ne h]

/-- Cancelling a timer gives no task another role. -/
theorem role?_of_cancelTimer {role : Role}
    (h : (tasks.cancelTimer timer).role? other = some role) : tasks.role? other = some role := by
  rcases cancelTimer_eq timer tasks with equal | ⟨id, _, equal⟩
  · rwa [equal] at h
  · rw [equal, role?_remove] at h
    split at h
    · cases h
    · exact h

/-! ### Sums over roles -/

/-- What a change of one task does to a sum over all of them. -/
theorem Numbered.tally_update (h : tasks.Numbered next) (found : tasks.get? id = some old)
    (task : Task) (f : Role → Nat) :
    (tasks.update id task).tally f + f old.role = tasks.tally f + f task.role := by
  replace h := h.nodup
  unfold get? at found
  unfold tally update
  induction tasks with
  | nil => simp at found
  | cons entry tasks ih =>
    obtain ⟨key, first⟩ := entry
    obtain ⟨hkey, htasks⟩ := List.nodup_cons.mp h
    by_cases hk : key = id
    · subst hk
      have hrest : (tasks.map fun entry => if entry.1 = key then (key, task) else entry) =
          tasks := by
        refine (List.map_congr_left fun entry member => ?_).trans (List.map_id _)
        rw [if_neg]
        · rfl
        · intro equal
          exact hkey (List.mem_map.mpr ⟨_, member, equal⟩)
      rw [List.lookup_cons_self] at found
      cases found
      rw [List.map_cons, if_pos rfl, hrest]
      simp only [List.map_cons, List.sum_cons]
      omega
    · rw [List.lookup_cons, beq_false_of_ne (Ne.symm hk)] at found
      have := ih found htasks
      simp only [List.map_cons, List.sum_cons, if_neg hk] at this ⊢
      omega

/-- What the end of one task does to a sum over all of them. -/
theorem Numbered.tally_remove (h : tasks.Numbered next) (found : tasks.get? id = some old)
    (f : Role → Nat) : (tasks.remove id).tally f + f old.role = tasks.tally f := by
  replace h := h.nodup
  unfold get? at found
  unfold tally remove
  induction tasks with
  | nil => simp at found
  | cons entry tasks ih =>
    obtain ⟨key, first⟩ := entry
    obtain ⟨hkey, htasks⟩ := List.nodup_cons.mp h
    by_cases hk : key = id
    · subst hk
      have hrest : (tasks.filter fun entry => entry.1 ≠ key) = tasks := by
        apply List.filter_eq_self.mpr
        intro entry member
        rw [decide_eq_true_eq]
        intro equal
        exact hkey (List.mem_map.mpr ⟨_, member, equal⟩)
      rw [List.lookup_cons_self] at found
      cases found
      rw [List.filter_cons_of_neg (by simp), hrest, List.map_cons, List.sum_cons]
      exact Nat.add_comm _ _
    · rw [List.lookup_cons, beq_false_of_ne (Ne.symm hk)] at found
      have := ih found htasks
      rw [List.filter_cons_of_pos (by simpa using hk), List.map_cons, List.map_cons,
        List.sum_cons, List.sum_cons]
      omega

theorem tally_add (f g : Role → Nat) (tasks : Tasks) :
    tasks.tally (fun role => f role + g role) = tasks.tally f + tasks.tally g := by
  unfold tally
  induction tasks with
  | nil => rfl
  | cons entry tasks ih =>
    simp only [List.map_cons, List.sum_cons] at ih ⊢
    omega

theorem Numbered.tally_update_le (h : tasks.Numbered next) (found : tasks.get? id = some old)
    (le : f task.role ≤ f old.role) : (tasks.update id task).tally f ≤ tasks.tally f := by
  have := h.tally_update found task f
  omega

theorem Numbered.tally_remove_le (h : tasks.Numbered next) (found : tasks.get? id = some old)
    (f : Role → Nat) : (tasks.remove id).tally f ≤ tasks.tally f := by
  have := h.tally_remove found f
  omega

theorem tally_append (tasks : Tasks) (id : Nat) (task : Task) (f : Role → Nat) :
    tally f (tasks ++ [(id, task)]) = tasks.tally f + f task.role := by
  simp [tally]

/-- A task that begins as a toggle or a shutdown adds nothing to a sum over other tasks. -/
theorem tally_enter (calm : task.role = .toggle ∨ task.role = .shutdown .start)
    (toggle : f .toggle = 0) (start : f (.shutdown .start) = 0) (tasks : Tasks) (id : Nat) :
    tally f (tasks ++ [(id, task)]) = tasks.tally f := by
  rw [tally_append]
  rcases calm with calm | calm
  · rw [calm, toggle, Nat.add_zero]
  · rw [calm, start, Nat.add_zero]

/-- A task that goes on in its role adds to a sum what it added before. -/
theorem Numbered.tally_onward (h : tasks.Numbered next) (found : tasks.get? id = some old)
    (same : task.role = old.role) (f : Role → Nat) :
    (tasks.update id task).tally f = tasks.tally f := by
  have sum := h.tally_update found task f
  rw [same] at sum
  exact Nat.add_right_cancel sum

theorem le_tally (played : tasks.role? id = some role) (f : Role → Nat) :
    f role ≤ tasks.tally f := by
  obtain ⟨task, found, rfl⟩ := Option.map_eq_some_iff.mp played
  have member := mem_of_get? found
  clear found played
  unfold tally
  induction tasks with
  | nil => cases member
  | cons entry tasks ih =>
    rw [List.map_cons, List.sum_cons]
    rcases List.mem_cons.mp member with equal | later
    · rw [← equal]
      exact Nat.le_add_right _ _
    · exact Nat.le_trans (ih later) (Nat.le_add_left _ _)

/-- Two tasks add up to no more than all of them. -/
theorem Numbered.add_le_tally (h : tasks.Numbered next) (played : tasks.role? id = some role)
    (another : tasks.role? other = some role') (hne : other ≠ id) (f : Role → Nat) :
    f role' + f role ≤ tasks.tally f := by
  have rest : (tasks.remove id).role? other = some role' := by
    rw [role?_remove, if_neg hne, another]
  obtain ⟨task, found, rfl⟩ := Option.map_eq_some_iff.mp played
  have := le_tally rest f
  have := h.tally_remove found f
  omega

theorem Numbered.exists_of_tally_pos (h : tasks.Numbered next) (hpos : 0 < tasks.tally f) :
    ∃ id task, tasks.get? id = some task ∧ 0 < f task.role := by
  obtain ⟨n, hn, hne⟩ := List.sum_pos_iff_exists_pos_nat.mp hpos
  obtain ⟨⟨id, task⟩, member, rfl⟩ := List.mem_map.mp hn
  exact ⟨id, task, get?_of_mem h.nodup member, hne⟩

/-- Cancelling a timer leaves a sum alone to which timers do not add. -/
theorem Numbered.tally_cancelTimer (h : tasks.Numbered next)
    (none : ∀ id task, timer = some id → tasks.get? id = some task → f task.role = 0) :
    (tasks.cancelTimer timer).tally f = tasks.tally f := by
  rcases cancelTimer_eq timer tasks with equal | ⟨id, htimer, equal⟩
  · rw [equal]
  · rw [equal]
    cases found : tasks.get? id with
    | none => rw [remove_of_get?_none found]
    | some task =>
      have := h.tally_remove found f
      have := none id task htimer found
      omega

/-- Cancelling a timer makes no sum larger. -/
theorem Numbered.tally_cancelTimer_le (h : tasks.Numbered next) (timer : Option Nat)
    (f : Role → Nat) : (tasks.cancelTimer timer).tally f ≤ tasks.tally f := by
  rcases cancelTimer_eq timer tasks with equal | ⟨id, _, equal⟩
  · exact Nat.le_of_eq (by rw [equal])
  · rw [equal]
    cases found : tasks.get? id with
    | none => exact Nat.le_of_eq (by rw [remove_of_get?_none found])
    | some task =>
      have := h.tally_remove found f
      omega

theorem mem_numbers (h : tasks.Numbered next) :
    id ∈ tasks.numbers f ↔ ∃ role, tasks.role? id = some role ∧ f role ≠ 0 := by
  constructor
  · intro member
    obtain ⟨⟨id, task⟩, hentry, rfl⟩ := List.mem_map.mp member
    obtain ⟨hentry, hf⟩ := List.mem_filter.mp hentry
    exact ⟨task.role, role?_of_get? (get?_of_mem h.nodup hentry), of_decide_eq_true hf⟩
  · rintro ⟨role, played, hf⟩
    obtain ⟨task, found, equal⟩ := Option.map_eq_some_iff.mp played
    rw [← equal] at hf
    exact List.mem_map.mpr ⟨(id, task), List.mem_filter.mpr ⟨mem_of_get? found,
      decide_eq_true hf⟩, rfl⟩

/-- A sum of ones counts tasks. -/
theorem length_numbers (le : ∀ role, f role ≤ 1) (tasks : Tasks) :
    (tasks.numbers f).length = tasks.tally f := by
  unfold numbers tally
  induction tasks with
  | nil => rfl
  | cons entry tasks ih =>
    have := le entry.2.role
    by_cases zero : f entry.2.role = 0
    · rw [List.filter_cons_of_neg (by simpa using zero), ih, List.map_cons, List.sum_cons]
      omega
    · rw [List.filter_cons_of_pos (by simpa using zero), List.map_cons, List.length_cons, ih,
        List.map_cons, List.sum_cons]
      omega

/-! ### Numbers stay in order -/

theorem Numbered.update (h : tasks.Numbered next) (id : Nat) (task : Task) :
    Numbered next (tasks.update id task) := by
  have keys : (tasks.update id task).map (·.1) = tasks.map (·.1) := by
    unfold Tasks.update
    rw [List.map_map]
    refine List.map_congr_left fun entry _ => ?_
    by_cases hk : entry.1 = id
    · simp [hk]
    · simp [hk]
  constructor
  · rw [keys]
    exact h.nodup
  · intro entry member
    have hkey : entry.1 ∈ tasks.map (·.1) := by
      rw [← keys]
      exact List.mem_map_of_mem member
    obtain ⟨earlier, hearlier, equal⟩ := List.mem_map.mp hkey
    rw [← equal]
    exact h.below earlier hearlier

theorem Numbered.remove (h : tasks.Numbered next) (id : Nat) : Numbered next (tasks.remove id) where
  nodup := h.nodup.sublist (List.filter_sublist.map _)
  below entry member := h.below entry (List.mem_filter.mp member).1

theorem Numbered.cancelTimer (h : tasks.Numbered next) (timer : Option Nat) :
    Numbered next (tasks.cancelTimer timer) := by
  rcases cancelTimer_eq timer tasks with equal | ⟨id, _, equal⟩
  · rw [equal]
    exact h
  · rw [equal]
    exact h.remove id

theorem Numbered.append (h : tasks.Numbered next) (task : Task) :
    Numbered (next + 1) (tasks ++ [(next, task)]) := by
  constructor
  · rw [List.map_append, List.map_singleton]
    refine List.nodup_append.mpr ⟨h.nodup, List.nodup_singleton _, ?_⟩
    intro key member last hlast equal
    obtain ⟨entry, hentry, rfl⟩ := List.mem_map.mp member
    have := h.below entry hentry
    rw [List.mem_singleton.mp hlast] at equal
    omega
  · intro entry member
    rcases List.mem_append.mp member with earlier | last
    · exact Nat.lt_succ_of_lt (h.below entry earlier)
    · rw [List.mem_singleton.mp last]
      exact Nat.lt_succ_self _

end Tasks

end StyleMonitor.Coordinator
