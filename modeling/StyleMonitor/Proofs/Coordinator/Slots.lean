import Mathlib.Algebra.GroupWithZero.Nat
import StyleMonitor.Coordinator.Slot
import StyleMonitor.Proofs.Path

/-!
# Reading and adding up slots

A root has one slot under all its spellings. The lemmas here say what each operation on slots
does to the slot of a root, and what it does to a sum over all slots.
-/

namespace StyleMonitor

namespace Coordinator.Slots

theorem get_nil (root : String) : get [] root = {} := rfl

theorem get_cons (key : String) (slot : Slot) (slots : Slots) (root : String) :
    get ((key, slot) :: slots) root = if Path.same key root then slot else get slots root := by
  by_cases h : Path.same key root = true
  · simp [get, h]
  · simp [get, h]

/-- All spellings of a root lead to the same slot. -/
theorem get_congr {a b : String} (h : Path.same a b = true) (slots : Slots) :
    slots.get a = slots.get b := by
  induction slots with
  | nil => rfl
  | cons entry slots ih =>
    rw [get_cons, get_cons, Path.same_congr_right h, ih]

/-- A root's slot is what was set last, under whatever spelling. -/
theorem get_set (slots : Slots) (root other : String) (slot : Slot) :
    (slots.set root slot).get other =
      if Path.same root other then slot else slots.get other := by
  induction slots with
  | nil => rw [set, get_cons]
  | cons entry slots ih =>
    obtain ⟨key, old⟩ := entry
    unfold set
    by_cases h : Path.same key root = true
    · rw [if_pos h, get_cons, get_cons, Path.same_congr_left h]
      split <;> rfl
    · rw [if_neg h, get_cons, get_cons, ih]
      by_cases hk : Path.same key other = true
      · have hr : ¬ Path.same root other = true := by
          intro hr
          exact h (Path.same_trans hk (by rw [Path.same_comm, hr]))
        rw [if_pos hk, if_neg hr, if_pos hk]
      · rw [if_neg hk, if_neg hk]

/-- A slot whose flag alone is set keeps its pending analysis, and so does every other. -/
theorem pending_set_flag (slots : Slots) (root other : String) (running : Bool) :
    ((slots.set root ⟨running, (slots.get root).pending⟩).get other).pending =
      (slots.get other).pending := by
  rw [get_set]
  split
  · next h => rw [get_congr h]
  · rfl

/-- No root is listed under two spellings. -/
def Distinct (slots : Slots) : Prop :=
  slots.Pairwise fun a b => Path.same a.1 b.1 = false

/-- The roots that are listed after one was given a slot. -/
theorem mem_set {slots : Slots} {root : String} {slot : Slot} {entry : String × Slot}
    (h : entry ∈ slots.set root slot) :
    (∃ old, (entry.1, old) ∈ slots) ∨ entry.1 = root := by
  induction slots with
  | nil => exact Or.inr (by simp_all [set])
  | cons first slots ih =>
    obtain ⟨key, old⟩ := first
    unfold set at h
    split at h
    · rcases List.mem_cons.mp h with rfl | h
      · exact Or.inl ⟨old, List.mem_cons_self⟩
      · exact Or.inl ⟨entry.2, List.mem_cons_of_mem _ h⟩
    · rcases List.mem_cons.mp h with rfl | h
      · exact Or.inl ⟨old, List.mem_cons_self⟩
      · rcases ih h with ⟨older, h⟩ | h
        · exact Or.inl ⟨older, List.mem_cons_of_mem _ h⟩
        · exact Or.inr h

theorem Distinct.set {slots : Slots} (h : slots.Distinct) (root : String) (slot : Slot) :
    Distinct (slots.set root slot) := by
  induction slots with
  | nil => exact List.pairwise_singleton _ _
  | cons entry slots ih =>
    obtain ⟨key, old⟩ := entry
    obtain ⟨hkey, hrest⟩ := List.pairwise_cons.mp h
    unfold Slots.set
    by_cases hk : Path.same key root = true
    · rw [if_pos hk]
      exact List.pairwise_cons.mpr ⟨hkey, hrest⟩
    · rw [if_neg hk]
      refine List.pairwise_cons.mpr ⟨?_, ih hrest⟩
      intro other member
      rcases mem_set member with ⟨older, member⟩ | equal
      · exact hkey (other.1, older) member
      · rw [equal]
        exact Bool.eq_false_iff.mpr hk

/-- Every entry is the slot of its root. -/
theorem Distinct.get_of_mem {slots : Slots} (h : slots.Distinct) {root : String} {slot : Slot}
    (member : (root, slot) ∈ slots) : slots.get root = slot := by
  induction slots with
  | nil => cases member
  | cons entry slots ih =>
    obtain ⟨hkey, hrest⟩ := List.pairwise_cons.mp h
    obtain ⟨key, old⟩ := entry
    rw [get_cons]
    rcases List.mem_cons.mp member with equal | member
    · cases equal
      rw [if_pos (Path.same_refl _)]
    · rw [if_neg (by rw [hkey _ member]; decide), ih hrest member]

/-- A sum over all slots. -/
def total (f : Slot → Nat) (slots : Slots) : Nat :=
  (slots.map fun entry => f entry.2).sum

/-- What an update of one slot does to a sum over all of them. -/
theorem total_set {f : Slot → Nat} (h : f {} = 0) (slots : Slots) (root : String) (slot : Slot) :
    total f (slots.set root slot) + f (slots.get root) = total f slots + f slot := by
  induction slots with
  | nil => simp [set, get_nil, total, h]
  | cons entry slots ih =>
    obtain ⟨key, old⟩ := entry
    rw [get_cons]
    unfold set
    by_cases hk : Path.same key root = true
    · rw [if_pos hk, if_pos hk]
      simp only [total, List.map_cons, List.sum_cons]
      omega
    · rw [if_neg hk, if_neg hk]
      simp only [total, List.map_cons, List.sum_cons] at ih ⊢
      omega

theorem le_total {f : Slot → Nat} (h : f {} = 0) (slots : Slots) (root : String) :
    f (slots.get root) ≤ total f slots := by
  have := total_set h slots root {}
  omega

/-- The slots of two roots add up to no more than all slots. -/
theorem add_le_total {f : Slot → Nat} (h : f {} = 0) (slots : Slots) {root other : String}
    (apart : Path.same root other = false) :
    f (slots.get root) + f (slots.get other) ≤ total f slots := by
  have cleared := total_set h slots root {}
  have rest := le_total h (slots.set root {}) other
  rw [get_set, if_neg (by rw [apart]; decide)] at rest
  omega

theorem Distinct.exists_of_total_pos {slots : Slots} (h : slots.Distinct) {f : Slot → Nat}
    (hpos : 0 < total f slots) : ∃ root, 0 < f (slots.get root) := by
  obtain ⟨n, hn, hne⟩ := List.sum_pos_iff_exists_pos_nat.mp hpos
  obtain ⟨⟨root, slot⟩, member, rfl⟩ := List.mem_map.mp hn
  exact ⟨root, by rw [h.get_of_mem member]; exact hne⟩

theorem waitersOf_none (running : Bool) : waitersOf { running, pending := none } = [] := rfl

theorem waitersOf_some (running : Bool) (pending : Pending) :
    waitersOf { running, pending := some pending } = pending.waiters := rfl

theorem waitersOf_of_pending {slot : Slot} {pending : Pending} (h : slot.pending = some pending) :
    waitersOf slot = pending.waiters := by
  rw [waitersOf, h]
  rfl

/-- Draining leaves no pending analysis, and changes nothing else. -/
theorem get_drain (slots : Slots) (root : String) :
    slots.drain.1.get root = { slots.get root with pending := none } := by
  induction slots with
  | nil => rfl
  | cons entry slots ih =>
    obtain ⟨key, old⟩ := entry
    have hcons : (drain ((key, old) :: slots)).1 =
        (key, { old with pending := none }) :: (drain slots).1 := rfl
    rw [hcons, get_cons, get_cons, ih]
    split <;> rfl

theorem Distinct.drain {slots : Slots} (h : slots.Distinct) : Distinct slots.drain.1 :=
  List.pairwise_map.mpr h

/-- Draining takes out what is pending at a root. -/
theorem mem_drain {slots : Slots} {root : String} {pending : Pending}
    (waits : (slots.get root).pending = some pending) : pending ∈ slots.drain.2 := by
  unfold get at waits
  cases found : slots.find? fun entry => Path.same entry.1 root with
  | none =>
    rw [found] at waits
    cases waits
  | some entry =>
    rw [found] at waits
    exact List.mem_filterMap.mpr ⟨entry, List.mem_of_find?_eq_some found, waits⟩

/-- What draining takes out was pending at some root. -/
theorem Distinct.get_of_mem_drain {slots : Slots} (h : slots.Distinct) {pending : Pending}
    (member : pending ∈ slots.drain.2) : ∃ root, (slots.get root).pending = some pending := by
  obtain ⟨⟨root, slot⟩, hslot, hpending⟩ := List.mem_filterMap.mp member
  exact ⟨root, by rw [h.get_of_mem hslot]; exact hpending⟩

/-- Draining moves the triggers of all slots to the pending analyses that it takes out. -/
theorem count_drain (slots : Slots) (waiter : Nat) :
    (slots.drain.2.flatMap (·.waiters)).count waiter =
      total (fun slot => (waitersOf slot).count waiter) slots := by
  induction slots with
  | nil => rfl
  | cons entry slots ih =>
    obtain ⟨key, running, pending⟩ := entry
    have htail : (slots.filterMap fun entry => entry.2.pending) = (drain slots).2 := rfl
    cases pending with
    | none =>
      simp only [drain, List.filterMap_cons, total, List.map_cons, List.sum_cons, waitersOf_none,
        List.count_nil, Nat.zero_add]
      rw [htail, ih]
      rfl
    | some pending =>
      simp only [drain, List.filterMap_cons, total, List.map_cons, List.sum_cons, waitersOf_some,
        List.flatMap_cons, List.count_append]
      rw [htail, ih]
      rfl

theorem total_drain (slots : Slots) (waiter : Nat) :
    total (fun slot => (waitersOf slot).count waiter) slots.drain.1 = 0 := by
  unfold total drain
  rw [List.map_map]
  induction slots with
  | nil => rfl
  | cons entry slots ih => simpa [waitersOf_none] using ih

/-! ### What the events at a root do to its slot -/

section Events

variable {slots : Slots} {root : String} {pending : Pending}

/-- A timer does nothing where another pending analysis, or none, took the place of its own. -/
theorem elapse_of_replaced {id : Nat}
    (replaced : ∀ pending, (slots.get root).pending = some pending → pending.id ≠ id) :
    slots.elapse root id = (slots, none) := by
  unfold elapse
  cases waits : (slots.get root).pending with
  | none => simp only [waits]
  | some pending => simp only [waits, if_pos (replaced pending waits)]

/-- A timer makes its pending analysis ready while another one is under way. -/
theorem elapse_of_busy (waits : (slots.get root).pending = some pending)
    (busy : (slots.get root).running = true) :
    slots.elapse root pending.id =
      (slots.set root ⟨true, some { pending with timer := none }⟩, none) := by
  simp [elapse, waits, busy]

/-- A timer starts its pending analysis on an idle root. -/
theorem elapse_of_idle (waits : (slots.get root).pending = some pending)
    (idle : (slots.get root).running = false) :
    slots.elapse root pending.id = (slots.set root ⟨true, none⟩, some pending.waiters) := by
  simp [elapse, waits, idle]

/-- A pending analysis that is ready follows, unless the coordinator was shut down. -/
theorem finish_of_ripe {shutDown : Bool} (waits : (slots.get root).pending = some pending)
    (ripe : pending.timer = none) (up : shutDown = false) :
    slots.finish root shutDown =
      (slots.set root { slots.get root with pending := none }, some pending.waiters) := by
  simp [finish, waits, Pending.ready, ripe, up]

/-- No analysis follows if none is ready, or if the coordinator was shut down. -/
theorem finish_of_unripe {shutDown : Bool}
    (unripe : ∀ pending, (slots.get root).pending = some pending → pending.timer = none →
      shutDown = true) :
    slots.finish root shutDown =
      (slots.set root { slots.get root with running := false }, none) := by
  unfold finish
  cases waits : (slots.get root).pending with
  | none => simp only [waits]
  | some pending =>
    have stays : ¬ (pending.ready = true ∧ ¬ shutDown = true) := fun ready =>
      ready.2 (unripe pending waits (Option.isNone_iff_eq_none.mp ready.1))
    simp only [waits, if_neg stays]

theorem breakOff_of_ripe (waits : (slots.get root).pending = some pending)
    (ripe : pending.timer = none) :
    slots.breakOff root = (slots.set root ⟨false, none⟩, pending.waiters) := by
  simp [breakOff, waits, Pending.ready, ripe]

theorem breakOff_of_unripe
    (unripe : ∀ pending, (slots.get root).pending = some pending → pending.timer ≠ none) :
    slots.breakOff root = (slots.set root { slots.get root with running := false }, []) := by
  unfold breakOff
  cases waits : (slots.get root).pending with
  | none => simp only [waits]
  | some pending =>
    have stays : ¬ pending.ready = true := fun ready =>
      unripe pending waits (Option.isNone_iff_eq_none.mp ready)
    simp only [waits, if_neg stays]

end Events

end Coordinator.Slots

end StyleMonitor
