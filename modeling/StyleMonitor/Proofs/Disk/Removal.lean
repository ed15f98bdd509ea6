import StyleMonitor.Proofs.Disk.Direct

/-!
# What is removed is gone

A walk that ends at a place finds nothing there once what stood there is taken away: it ends at the
same place, or before it where it passed the place on its way. A walk that follows the link at its
end comes to something only where the walk that does not follow it does; so what was removed cannot
be reached through links either.
-/

namespace StyleMonitor

namespace Tree

variable {first second : Tree} {place : Place}

/-- A tree stays grounded when something is taken away that is no directory. -/
theorem Grounded.of_erased (grounded : first.Grounded)
    (other : first.lookup place ≠ some .directory)
    (h : ∀ elsewhere, second.lookup elsewhere =
      if elsewhere = place then none else first.lookup elsewhere) : second.Grounded := by
  intro parent name stands
  rw [h] at stands ⊢
  split at stands
  · exact absurd rfl stands
  · have above := grounded parent name stands
    rw [if_neg ?_, above]
    rintro rfl
    exact other above

end Tree

namespace Disk

variable {tree erased : Tree} {links : Nat} {start place : Place} {names : List String}
  {spot : Spot} {node : Node}

/-! ### Links at the end -/

/-- The end of a walk that does not follow the last link: the end of the one that does, or the
link. -/
def Leaves (spot other : Spot) : Prop :=
  other = spot ∨ other.named = true ∧ ∃ target, other.node = some (.link target)

theorem Walks.unfollowed (walks : Walks tree true links start names spot) :
    ∃ first, Walks tree false links start names first ∧ Leaves spot first := by
  induction walks with
  | nil links start => exact ⟨_, .nil links start, Or.inl rfl⟩
  | here _ ih =>
    obtain ⟨first, walks, leaves⟩ := ih
    exact ⟨first, .here walks, leaves⟩
  | parent _ ih =>
    obtain ⟨first, walks, leaves⟩ := ih
    exact ⟨first, .parent walks, leaves⟩
  | last fits => exact ⟨_, .last fits nofun, Or.inl rfl⟩
  | directory fits stands more _ ih =>
    obtain ⟨first, walks, leaves⟩ := ih
    exact ⟨first, .directory fits stands more walks, leaves⟩
  | @link _ _ _ target rest _ fits stands _ _ ih =>
    by_cases ends : rest = []
    · subst ends
      exact ⟨_, .last fits nofun, Or.inr ⟨rfl, target, stands⟩⟩
    · obtain ⟨first, walks, leaves⟩ := ih
      exact ⟨first, .link fits stands (Or.inl ends) walks, leaves⟩

/-! ### Walks to what was taken away -/

/-- A walk ends where nothing is, or it does not come so far. -/
def Barren (place : Place) (result : Except Cause Spot) : Prop :=
  result = .ok ⟨place, none, true⟩ ∨ result = .error .notFound

theorem walk_erased
    (gone : ∀ elsewhere, erased.lookup elsewhere =
      if elsewhere = place then none else tree.lookup elsewhere)
    (h : walk tree false links start names = .ok ⟨place, some node, true⟩) :
    Barren place (walk erased false links start names) := by
  -- Where the walk first comes to the place, it finds nothing now.
  have passed {links : Nat} {start : Place} {name : String} {rest : List String}
      (fits : Fits name) (here : start ++ [name] = place) :
      Barren place (walk erased false links start (name :: rest)) := by
    have missing : erased.lookup (start ++ [name]) = none := by rw [gone, if_pos here]
    rw [walk_missing fits missing, here]
    split
    · exact Or.inl rfl
    · exact Or.inr rfl
  have kept {other : Place} (apart : ¬ other = place) :
      erased.lookup other = tree.lookup other := by
    rw [gone, if_neg apart]
  have walks := walks_of_ok h
  clear h
  generalize found : (⟨place, some node, true⟩ : Spot) = spot at walks
  induction walks with
  | nil => cases found
  | here _ ih =>
    rw [walk_here]
    exact ih found
  | parent _ ih =>
    rw [walk_parent]
    exact ih found
  | last fits => exact passed fits (congrArg Spot.place found).symm
  | @directory _ start name _ _ fits stands more _ ih =>
    by_cases same : start ++ [name] = place
    · exact passed fits same
    · rw [walk_directory fits ((kept same).trans stands), if_neg more]
      exact ih found
  | @link _ start name _ _ _ fits stands more _ ih =>
    by_cases same : start ++ [name] = place
    · exact passed fits same
    · have more := more.resolve_right nofun
      rw [walk_link fits ((kept same).trans stands), if_neg fun both => more both.1]
      exact ih found

/-! ### Removing -/

variable {disk after : Disk} {path : String}

/-- A path that leads to a file or a link that can be removed. -/
structure Removable (disk : Disk) (path : String) (spot : Spot) (node : Node) : Prop where
  leads : disk.spot false path = .ok spot
  named : spot.named = true
  stands : spot.node = some node
  other : node ≠ .directory
  slash : Path.endsInSlash path = false

theorem Removable.remove (removable : Removable disk path spot node) :
    disk.remove path = .ok { disk with tree := disk.tree.erase spot.place } := by
  unfold Disk.remove
  rw [removable.leads]
  have other := removable.other
  cases node with
  | directory => exact absurd rfl other
  | file content executable =>
    simp only [bind, Except.bind, removable.stands, removable.slash]
    rfl
  | link target =>
    simp only [bind, Except.bind, removable.stands, removable.slash]
    rfl

theorem removable_of_remove (sound : disk.Sound) (h : disk.remove path = .ok after) :
    ∃ spot node, Removable disk path spot node ∧
      after = { disk with tree := disk.tree.erase spot.place } := by
  obtain ⟨place, node, named, found, other, slash, rfl⟩ := exists_of_remove h
  refine ⟨⟨place, some node, named⟩, node, ⟨found, ?_, rfl, other, slash⟩, rfl⟩
  by_contra unnamed
  exact other (Option.some.inj ((sound.spot found).unnamed (by simpa using unnamed)))

/-- What a path leads to cannot be removed by it again. -/
theorem Removable.not_removable (sound : disk.Sound) (removable : Removable disk path spot node)
    (again : Spot) (left : Node) :
    ¬ Removable { disk with tree := disk.tree.erase spot.place } path again left := by
  intro once_more
  obtain ⟨above, name, place, -⟩ := (sound.spot removable.leads).parent removable.named
  have gone := disk.tree.lookup_erase (show spot.place ≠ [] by simp [place])
  have walked := (spot_ok_iff.mp removable.leads).2
  have walked' := (spot_ok_iff.mp once_more.leads).2
  have whole : spot = ⟨spot.place, some node, true⟩ := by
    rw [← removable.stands, ← removable.named]
  rw [whole] at walked
  rcases walk_erased gone walked with nothing | lost
  · have same : again = ⟨spot.place, none, true⟩ := Except.ok.inj (walked'.symm.trans nothing)
    have stands := once_more.stands
    rw [same] at stands
    cases stands
  · cases walked'.symm.trans lost

theorem Sound.remove (sound : disk.Sound) (h : disk.remove path = .ok after) : after.Sound := by
  obtain ⟨spot, node, removable, rfl⟩ := removable_of_remove sound h
  obtain ⟨above, name, place, -⟩ := (sound.spot removable.leads).parent removable.named
  have gone := disk.tree.lookup_erase (show spot.place ≠ [] by simp [place])
  have other : disk.tree.lookup spot.place ≠ some .directory := by
    rw [(sound.spot removable.leads).node, removable.stands]
    exact fun same => removable.other (Option.some.inj same)
  refine ⟨sound.grounded.of_erased other gone, ?_⟩
  rw [gone, if_neg ?_, sound.home]
  rintro home
  exact other (home ▸ sound.home)

end Disk

end StyleMonitor
