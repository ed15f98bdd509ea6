import StyleMonitor.Proofs.Disk.Calls

/-!
# Walks through trees that were altered

A walk goes through directories and links. Where they are all still there, it ends at the same
place, whatever stands there now; where some of them made room for a file or for nothing, it ends at
the same place or fails. It goes elsewhere only through what has become another link or a link that
was none.
-/

namespace StyleMonitor

namespace Tree

variable {first second : Tree}

/-- The second tree is the first but for leaves: where they differ, one of them has a file or
nothing. -/
def Altered (first second : Tree) : Prop :=
  ∀ place, second.lookup place = first.lookup place ∨
    Node.IsLeaf (first.lookup place) ∨ Node.IsLeaf (second.lookup place)

/-- Some directory or link made room for a leaf. -/
def Lost (first second : Tree) : Prop :=
  ∃ place, ¬ Node.IsLeaf (first.lookup place) ∧ Node.IsLeaf (second.lookup place)

theorem altered_of_grown (grown : ∀ place, second.lookup place = first.lookup place ∨
    Node.IsLeaf (first.lookup place)) : first.Altered second :=
  fun place => (grown place).imp_right Or.inl

theorem not_lost_of_grown (grown : ∀ place, second.lookup place = first.lookup place ∨
    Node.IsLeaf (first.lookup place)) : ¬ first.Lost second := by
  rintro ⟨place, solid, leaf⟩
  rcases grown place with same | bare
  · rw [same] at leaf
    exact solid leaf
  · exact solid bare

/-- A tree is altered when something is taken away. -/
theorem altered_of_erased {place : Place} (gone : ∀ elsewhere, second.lookup elsewhere =
    if elsewhere = place then none else first.lookup elsewhere) : first.Altered second := by
  intro elsewhere
  rw [gone]
  split
  · exact Or.inr (Or.inr Node.isLeaf_none)
  · exact Or.inl rfl

/-- What stands in the altered tree where a node stands that a walk goes through. -/
theorem Altered.cases {place : Place} (altered : first.Altered second)
    (solid : ¬ Node.IsLeaf (first.lookup place)) :
    second.lookup place = first.lookup place ∨
      Node.IsLeaf (second.lookup place) ∧ first.Lost second := by
  rcases altered place with same | leaf | leaf
  · exact Or.inl same
  · exact absurd leaf solid
  · exact Or.inr ⟨leaf, place, solid, leaf⟩

end Tree

namespace Disk

variable {first second : Tree} {links : Nat} {start : Place} {name : String}
  {names rest : List String} {found : Place × Bool}

/-- What a walk that led somewhere comes to when things are lost: the same place, or nowhere. -/
def Fades (first second : Tree) (found : Place × Bool) (result : Except Cause Spot) : Prop :=
  reached result = some found ∨ reached result = none ∧ first.Lost second

/-- Whatever stands at the end of a walk, it ends there. -/
theorem reached_last (fits : Fits name) (tree : Tree) :
    reached (walk tree false links start [name]) = some (start ++ [name], true) := by
  have ends : walk tree false links start [name] =
      .ok ⟨start ++ [name], tree.lookup (start ++ [name]), true⟩ := walk_last fits nofun
  rw [ends]
  rfl

/-- A walk goes nowhere through a leaf. -/
theorem fades_of_leaf (fits : Fits name) (more : rest ≠ []) (lost : first.Lost second)
    (leaf : Node.IsLeaf (second.lookup (start ++ [name]))) :
    Fades first second found (walk second false links start (name :: rest)) := by
  refine Or.inr ⟨?_, lost⟩
  rw [walk_leaf fits leaf, if_neg more]

theorem walk_altered (altered : first.Altered second)
    (h : reached (walk first false links start names) = some found) :
    Fades first second found (walk second false links start names) := by
  obtain ⟨spot, walked, rfl⟩ := exists_of_reached h
  have walks := walks_of_ok walked
  clear h walked
  -- At the last name the walks end, whatever they meet there; before it only what the first walk
  -- goes through is of interest.
  induction walks with
  | nil =>
    rw [walk_nil]
    exact Or.inl rfl
  | here _ ih =>
    rw [walk_here]
    exact ih
  | parent _ ih =>
    rw [walk_parent]
    exact ih
  | last fits => exact Or.inl (reached_last fits second)
  | directory fits stands more _ ih =>
    rcases altered.cases fun leaf => leaf.ne_directory stands with same | ⟨leaf, lost⟩
    · rw [walk_directory fits (same.trans stands), if_neg more]
      exact ih
    · exact fades_of_leaf fits more lost leaf
  | @link _ _ _ target _ _ fits stands more _ ih =>
    have more := more.resolve_right nofun
    rcases altered.cases fun leaf => leaf.ne_link target stands with same | ⟨leaf, lost⟩
    · rw [walk_link fits (same.trans stands), if_neg fun both => more both.1]
      exact ih
    · exact fades_of_leaf fits more lost leaf

/-! ### Paths -/

variable {disk later : Disk} {path : String}

/-- A path that led somewhere leads there still or nowhere. -/
theorem leads_altered (current : later.current = disk.current)
    (altered : disk.tree.Altered later.tree) (leads : disk.leads path = some found) :
    later.leads path = some found ∨ later.leads path = none ∧ disk.tree.Lost later.tree := by
  by_cases usable : Usable path
  · rw [leads_eq_of_usable usable] at leads ⊢
    rw [origin, current, ← origin]
    exact walk_altered altered leads
  · rw [leads_of_not_usable usable] at leads
    cases leads

theorem leads_eq_of_altered {now : Place × Bool} (current : later.current = disk.current)
    (altered : disk.tree.Altered later.tree) (leads : disk.leads path = some found)
    (now_leads : later.leads path = some now) : now = found := by
  rcases leads_altered current altered leads with same | ⟨nowhere, -⟩
  · exact Option.some.inj (now_leads.symm.trans same)
  · cases now_leads.symm.trans nowhere

/-- Where more stands in place of leaves only, all paths lead where they led. -/
theorem leads_grown (current : later.current = disk.current)
    (grown : ∀ place, later.tree.lookup place = disk.tree.lookup place ∨
      Node.IsLeaf (disk.tree.lookup place))
    (leads : disk.leads path = some found) : later.leads path = some found :=
  (leads_altered current (Tree.altered_of_grown grown) leads).resolve_right
    fun lost => Tree.not_lost_of_grown grown lost.2

end Disk

end StyleMonitor
