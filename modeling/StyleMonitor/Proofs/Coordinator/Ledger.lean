import Mathlib.Data.List.Induction
import StyleMonitor.Coordinator.Journal
import StyleMonitor.Path

/-!
# What a root's journal may say

`Ledger.Takes` says which entry can come next in the journal of a root, given who waits there and
which analysis is under way. `Follows` strings such entries together. The results are about all
journals of this kind: what an answer goes back to, and how many analyses a number of arrivals can
cause.
-/

namespace StyleMonitor.Coordinator

/-- Whether an entry is about a root. -/
def Entry.concerns (root : String) : Entry → Bool
  | arrived other _ | started other _ _ | ended other _ _ | answered other _ _ _
  | brokenOff other _ _ => Path.same other root
  | drained => true
  | refused .. | letGo .. => false

/-- The triggers that arrive with an entry. -/
@[grind]
def Entry.arrivals : Entry → List Nat
  | arrived _ waiter => [waiter]
  | refused .. | started .. | ended .. | answered .. | brokenOff .. | drained | letGo _ => []

/-- The triggers that the analysis serves which starts with an entry, if one does. -/
def Entry.starts : Entry → List (List Nat)
  | started _ _ waiters => [waiters]
  | refused .. | arrived .. | ended .. | answered .. | brokenOff .. | drained | letGo _ => []

/-- Whether an analysis is over with an entry, for good or ill. -/
def Entry.lands : Entry → Bool
  | answered .. | brokenOff .. => true
  | _ => false

/-- Whether triggers that wait can be let go with an entry. -/
def Entry.breaks : Entry → Bool
  | brokenOff .. | drained => true
  | _ => false

/-- An analysis under way. -/
structure Flight where
  task : Nat
  waiters : List Nat
  /-- What it ended with, if it has ended. -/
  outcome : Option Outcome := none

/-- An analysis of a root as the journal of the root has it: it started once its triggers had
arrived, no other one has started since, and what it ended with is noted. -/
def Flight.Begun (flight : Flight) (entries : List Entry) : Prop :=
  ∃ earlier root during,
    entries = earlier ++ .started root flight.task flight.waiters :: during ∧
    during.flatMap Entry.starts = [] ∧
    (∀ outcome, flight.outcome = some outcome → ∃ root, .ended root flight.task outcome ∈ during) ∧
    ∀ waiter ∈ flight.waiters, ∃ root, .arrived root waiter ∈ earlier

theorem Flight.Begun.snoc {flight : Flight} {entries : List Entry} {entry : Entry}
    (h : flight.Begun entries) (quiet : entry.starts = []) : flight.Begun (entries ++ [entry]) := by
  obtain ⟨earlier, root, during, rfl, none, ends, arrives⟩ := h
  refine ⟨earlier, root, during ++ [entry], by simp, by simp [none, quiet], ?_, arrives⟩
  intro outcome equal
  obtain ⟨root, member⟩ := ends outcome equal
  exact ⟨root, List.mem_append_left _ member⟩

/-- What the journal of a root tells of its present. -/
structure Ledger where
  /-- The triggers that wait. -/
  queue : List Nat := []
  flight : Option Flight := none

/-- The entries that can come next, and what they change. -/
inductive Ledger.Takes : Ledger → Entry → Ledger → Prop where
  | arrived {queue flight} (root : String) (waiter : Nat) :
    Takes ⟨queue, flight⟩ (.arrived root waiter) ⟨queue ++ [waiter], flight⟩
  /-- An analysis takes all triggers that wait. There is one at least. -/
  | started {queue} (root : String) (task : Nat) (any : queue ≠ []) :
    Takes ⟨queue, none⟩ (.started root task queue) ⟨[], some ⟨task, queue, none⟩⟩
  | ended {queue task waiters} (root : String) (outcome : Outcome) :
    Takes ⟨queue, some ⟨task, waiters, none⟩⟩ (.ended root task outcome)
      ⟨queue, some ⟨task, waiters, some outcome⟩⟩
  | answered {queue task waiters outcome} (root : String) :
    Takes ⟨queue, some ⟨task, waiters, some outcome⟩⟩ (.answered root task waiters outcome)
      ⟨queue, none⟩
  | givenUp {queue task waiters} (root : String) :
    Takes ⟨queue, some ⟨task, waiters, none⟩⟩ (.brokenOff root task queue) ⟨[], none⟩
  | left {queue task waiters} (root : String) :
    Takes ⟨queue, some ⟨task, waiters, none⟩⟩ (.brokenOff root task []) ⟨queue, none⟩
  | drained {queue flight} : Takes ⟨queue, flight⟩ .drained ⟨[], flight⟩

/-- The rows of entries that can come next. -/
inductive Ledger.Follows (start : Ledger) : List Entry → Ledger → Prop where
  | nil : Follows start [] start
  | snoc {entries middle entry last} (h : Follows start entries middle)
    (takes : Takes middle entry last) : Follows start (entries ++ [entry]) last

namespace Ledger.Follows

variable {start middle last : Ledger} {entries first second : List Entry} {entry : Entry}
  {root : String} {task : Nat} {waiters : List Nat} {outcome : Outcome}

theorem single (takes : start.Takes entry last) : start.Follows [entry] last :=
  Follows.nil.snoc takes

theorem append (h : start.Follows first middle) (more : middle.Follows second last) :
    start.Follows (first ++ second) last := by
  induction more with
  | nil => rwa [List.append_nil]
  | snoc _ takes ih =>
    rw [← List.append_assoc]
    exact ih.snoc takes

theorem of_snoc (h : start.Follows (entries ++ [entry]) last) :
    ∃ middle, start.Follows entries middle ∧ middle.Takes entry last := by
  generalize equal : entries ++ [entry] = all at h
  cases h with
  | nil => exact absurd equal (by simp)
  | snoc h takes =>
    obtain ⟨rfl, same⟩ := List.append_inj' equal rfl
    cases same
    exact ⟨_, h, takes⟩

theorem of_append (h : start.Follows (first ++ second) last) :
    ∃ middle, start.Follows first middle ∧ middle.Follows second last := by
  induction second using List.reverseRecOn generalizing last with
  | nil =>
    rw [List.append_nil] at h
    exact ⟨last, h, .nil⟩
  | append_singleton second entry ih =>
    rw [← List.append_assoc] at h
    obtain ⟨before, h, takes⟩ := h.of_snoc
    obtain ⟨middle, hfirst, hsecond⟩ := ih h
    exact ⟨middle, hfirst, hsecond.snoc takes⟩

theorem of_cons (h : start.Follows (entry :: entries) last) :
    ∃ middle, start.Takes entry middle ∧ middle.Follows entries last := by
  rw [← List.singleton_append] at h
  obtain ⟨middle, hfirst, hrest⟩ := h.of_append
  rw [← List.nil_append [entry]] at hfirst
  obtain ⟨before, hnil, takes⟩ := hfirst.of_snoc
  generalize equal : ([] : List Entry) = none at hnil
  cases hnil with
  | nil => exact ⟨middle, takes, hrest⟩
  | snoc => exact absurd equal (by simp)

/-! ### Where an answer comes from -/

/-- Who waits has arrived since nobody waited. -/
theorem arrived_of_mem_queue (h : start.Follows entries last) (empty : start.queue = [])
    {waiter : Nat} (waits : waiter ∈ last.queue) : ∃ root, .arrived root waiter ∈ entries := by
  induction h with
  | nil =>
    rw [empty] at waits
    cases waits
  | @snoc entries middle entry last h takes ih =>
    have earlier : waiter ∈ middle.queue → ∃ root, .arrived root waiter ∈ entries ++ [entry] := by
      intro waits
      obtain ⟨root, member⟩ := ih waits
      exact ⟨root, List.mem_append_left _ member⟩
    cases takes with
    | arrived root newcomer =>
      rcases List.mem_append.mp waits with waits | waits
      · exact earlier waits
      · rw [List.mem_singleton.mp waits]
        exact ⟨root, by simp⟩
    | started | givenUp | drained => cases waits
    | ended | answered | left => exact earlier waits

/-- An analysis under way started once its triggers had arrived, and no other one has started
since. -/
theorem begun_of_flight (h : Follows {} entries last) {flight : Flight}
    (flies : last.flight = some flight) : flight.Begun entries := by
  induction h generalizing flight with
  | nil => cases flies
  | @snoc entries middle entry last h takes ih =>
    cases takes with
    | arrived | drained => exact (ih flies).snoc rfl
    | answered | givenUp | left => cases flies
    | started root task any =>
      cases flies
      exact ⟨entries, root, [], rfl, rfl, nofun,
        fun waiter waits => h.arrived_of_mem_queue rfl waits⟩
    | @ended _ task _ root outcome =>
      cases flies
      obtain ⟨earlier, home, during, rfl, none, _, arrives⟩ := ih rfl
      refine ⟨earlier, home, during ++ [.ended root task outcome], by simp, ?_, ?_, arrives⟩
      · simp [none, Entry.starts]
      · intro outcome equal
        cases equal
        exact ⟨root, List.mem_append_right _ (List.mem_singleton_self _)⟩

/-- What triggers are answered with is what their analysis ended with. -/
theorem begun_of_answered (h : Follows {} (first ++ .answered root task waiters outcome :: second)
    last) : Flight.Begun ⟨task, waiters, some outcome⟩ first := by
  obtain ⟨middle, hfirst, hrest⟩ := h.of_append
  obtain ⟨after, takes, _⟩ := hrest.of_cons
  cases takes with
  | answered => exact hfirst.begun_of_flight rfl

/-! ### How many analyses there are -/

/-- Each analysis takes one waiting trigger at least. -/
theorem length_starts_le (h : Follows {} entries last) :
    (entries.flatMap Entry.starts).length + last.queue.length ≤
      (entries.flatMap Entry.arrivals).length := by
  induction h with
  | nil => exact Nat.le_refl _
  | @snoc entries middle entry last h takes ih =>
    rw [List.flatMap_append, List.flatMap_append, List.flatMap_singleton, List.flatMap_singleton,
      List.length_append, List.length_append]
    cases takes with
    | arrived =>
      simp only [Entry.starts, Entry.arrivals, List.length_append, List.length_nil,
        List.length_singleton] at ih ⊢
      omega
    | started root task any =>
      have := List.length_pos_iff.mpr any
      simp only [Entry.starts, Entry.arrivals, List.length_nil, List.length_singleton] at ih ⊢
      omega
    | ended | answered | givenUp | left | drained =>
      simp only [Entry.starts, Entry.arrivals, List.length_nil] at ih ⊢
      omega

/-- As long as nobody is let go, whoever arrives is served, in order, or still waits. -/
theorem queue_eq (h : start.Follows entries last)
    (none : ∀ entry ∈ entries, entry.breaks = false) :
    start.queue ++ entries.flatMap Entry.arrivals =
      (entries.flatMap Entry.starts).flatten ++ last.queue := by
  induction h with
  | nil => simp
  | @snoc entries middle entry last h takes ih =>
    have whole := none entry (by simp)
    have ih := ih fun entry member => none entry (List.mem_append_left _ member)
    rw [List.flatMap_append, List.flatMap_append, List.flatMap_singleton, List.flatMap_singleton,
      ← List.append_assoc, ih]
    cases takes with
    | arrived | started | ended | answered => simp [Entry.starts, Entry.arrivals]
    | givenUp | left | drained => cases whole

/-- Once nobody arrives any more, at most one analysis starts, and it serves all who wait. -/
theorem starts_of_quiet (h : start.Follows entries last)
    (none : ∀ entry ∈ entries, entry.breaks = false)
    (quiet : entries.flatMap Entry.arrivals = []) :
    (entries.flatMap Entry.starts = [] ∧ last.queue = start.queue) ∨
      (entries.flatMap Entry.starts = [start.queue] ∧ last.queue = []) := by
  induction h with
  | nil => exact Or.inl ⟨rfl, rfl⟩
  | @snoc entries middle entry last h takes ih =>
    have whole := none entry (by simp)
    rw [List.flatMap_append, List.append_eq_nil_iff] at quiet
    have ih := ih (fun entry member => none entry (List.mem_append_left _ member)) quiet.1
    rw [List.flatMap_append, List.flatMap_singleton]
    cases takes with
    | arrived => cases quiet.2
    | ended | answered => simpa [Entry.starts] using ih
    | givenUp | left | drained => cases whole
    | started root task any =>
      rcases ih with ⟨before, same⟩ | ⟨_, empty⟩
      · exact Or.inr ⟨by simp [before, Entry.starts, ← same], rfl⟩
      · exact absurd empty any

/-- While an analysis is under way, no other one starts. -/
theorem starts_of_flight (h : start.Follows entries last) {flight : Flight}
    (flies : start.flight = some flight) (none : ∀ entry ∈ entries, entry.lands = false) :
    entries.flatMap Entry.starts = [] ∧ last.flight.isSome := by
  induction h with
  | nil => exact ⟨rfl, by rw [flies]; rfl⟩
  | @snoc entries middle entry last h takes ih =>
    have aloft := none entry (by simp)
    obtain ⟨before, flying⟩ := ih fun entry member => none entry (List.mem_append_left _ member)
    rw [List.flatMap_append, before]
    cases takes with
    | arrived | drained => exact ⟨rfl, flying⟩
    | started => cases flying
    | ended => exact ⟨rfl, rfl⟩
    | answered | givenUp | left => cases aloft

/-- An analysis that is not under way any more, and did not break off, answered its triggers. -/
theorem answered_of_flight (h : start.Follows entries last)
    (flies : ∃ outcome, start.flight = some ⟨task, waiters, outcome⟩)
    (none : ∀ entry ∈ entries, entry.breaks = false) :
    (∃ outcome, last.flight = some ⟨task, waiters, outcome⟩) ∨
      ∃ root outcome, .answered root task waiters outcome ∈ entries := by
  induction h with
  | nil => exact Or.inl flies
  | @snoc entries middle entry last h takes ih =>
    have whole := none entry (by simp)
    rcases ih fun entry member => none entry (List.mem_append_left _ member) with
      ⟨outcome, flies⟩ | ⟨root, outcome, member⟩
    · cases takes with
      | arrived => exact Or.inl ⟨outcome, flies⟩
      | started => cases flies
      | ended root outcome =>
        cases flies
        exact Or.inl ⟨_, rfl⟩
      | answered root =>
        cases flies
        exact Or.inr ⟨root, _, List.mem_append_right _ (List.mem_singleton_self _)⟩
      | givenUp | left | drained => cases whole
    · exact Or.inr ⟨root, outcome, List.mem_append_left _ member⟩

end Ledger.Follows

end StyleMonitor.Coordinator
