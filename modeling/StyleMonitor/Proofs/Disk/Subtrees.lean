import StyleMonitor.Proofs.Disk.Altered
import StyleMonitor.Proofs.Disk.Frames
import StyleMonitor.Proofs.Disk.Reach

/-!
# Moving with all below

A directory is moved with all that is below it, to a place where nothing is. There it stands as it
stood before, nothing is left where it was, and all else stays.
-/

namespace StyleMonitor

namespace Tree

variable {tree : Tree} {source target place : Place}

theorem mem_of_lookup_ne_none (named : place ≠ []) (stands : tree.lookup place ≠ none) :
    ∃ entry ∈ tree.nodes, entry.1 = place := by
  rw [lookup, if_neg named, Ne, List.lookup_eq_none_iff] at stands
  obtain ⟨entry, member, same⟩ : ∃ entry ∈ tree.nodes, place = entry.1 := by simpa using stands
  exact ⟨entry, member, same.symm⟩

/-- In an empty directory nothing stands, however deep. -/
theorem lookup_of_hasEntries_eq_false (empty : tree.hasEntries place = false) {rest : Place}
    (below : rest ≠ []) : tree.lookup (place ++ rest) = none := by
  by_contra stands
  obtain ⟨entry, member, same⟩ := mem_of_lookup_ne_none (by simp [below]) stands
  have inside : (place.isPrefixOf entry.1 && decide (place.length < entry.1.length)) = true := by
    rw [same, Bool.and_eq_true]
    refine ⟨List.isPrefixOf_iff_prefix.mpr (List.prefix_append _ _), ?_⟩
    simpa using List.length_pos_of_ne_nil below
  rw [hasEntries, List.any_eq_false] at empty
  exact empty entry member inside

/-- What is moved stands at the new place as it stood at the old one. -/
theorem lookup_move_target (tree : Tree) {rest : Place} (named : source ≠ []) (other : target ≠ [])
    (free : ∀ rest, tree.lookup (target ++ rest) = none) :
    (tree.move source target).lookup (target ++ rest) = tree.lookup (source ++ rest) := by
  have unlisted : ∀ entry ∈ tree.nodes, ¬ target <+: entry.1 := by
    rintro entry member ⟨rest, split⟩
    exact lookup_ne_none_of_mem member (split ▸ free rest)
  rw [lookup, lookup, if_neg (by simp [other]), if_neg (by simp [named]), move]
  generalize tree.nodes = nodes at unlisted
  induction nodes with
  | nil => rfl
  | cons entry more ih =>
    obtain ⟨listed, node⟩ := entry
    have own := unlisted _ List.mem_cons_self
    rw [List.map_cons, List.lookup_cons, List.lookup_cons,
      ih fun entry member => unlisted entry (List.mem_cons_of_mem _ member)]
    have same : (target ++ rest == relocate source target listed) = (source ++ rest == listed) := by
      rw [Bool.eq_iff_iff, beq_iff_eq, beq_iff_eq, relocate]
      split
      · next moved =>
        obtain ⟨deep, rfl⟩ := List.isPrefixOf_iff_prefix.mp moved
        rw [List.drop_left, List.append_right_inj, List.append_right_inj]
      · next stays =>
        refine iff_of_false ?_ ?_
        · rintro rfl
          exact own (List.prefix_append _ _)
        · rintro rfl
          exact stays (List.isPrefixOf_iff_prefix.mpr (List.prefix_append _ _))
    rw [same]

/-- Nothing is left where something was moved away. -/
theorem lookup_move_source (tree : Tree) (named : source ≠ []) (left : source <+: place)
    (away : ¬ target <+: place) : (tree.move source target).lookup place = none := by
  have other : place ≠ [] := by
    rintro rfl
    exact named (List.prefix_nil.mp left)
  by_contra stands
  obtain ⟨entry, member, same⟩ := mem_of_lookup_ne_none other stands
  obtain ⟨was, -, rfl⟩ := List.mem_map.mp member
  simp only [relocate] at same
  split at same
  · rw [← same] at away
    exact away (List.prefix_append _ _)
  · next stays =>
    rw [same] at stays
    exact stays (List.isPrefixOf_iff_prefix.mpr left)

end Tree

namespace Disk

/-! ### Views -/

/-- What stands where when something was moved from a place to another with all that is below. -/
def shifted (source target : Place) (look : Place → Option Node) (place : Place) : Option Node :=
  if target <+: place then look (source ++ place.drop target.length)
  else if source <+: place then none else look place

variable {disk other first second third : Disk} {path source target : String}
  {old new place : Place} {node : Node} {look : Place → Option Node}

@[simp] theorem shifted_target (source target rest : Place) (look : Place → Option Node) :
    shifted source target look (target ++ rest) = look (source ++ rest) := by
  rw [shifted, if_pos (List.prefix_append _ _), List.drop_left]

theorem shifted_source (left : old <+: place) (away : ¬ new <+: place) :
    shifted old new look place = none := by
  rw [shifted, if_neg away, if_pos left]

theorem shifted_of_apart (left : ¬ old <+: place) (away : ¬ new <+: place) :
    shifted old new look place = look place := by
  rw [shifted, if_neg away, if_neg left]

/-- Places that are both at the beginning of a place are the one at the beginning of the other. -/
theorem apart_of_below (apart : ¬ old <+: new) (apart' : ¬ new <+: old) (here : old <+: place) :
    ¬ new <+: place := by
  intro there
  rcases Nat.le_total old.length new.length with shorter | longer
  · exact apart (List.prefix_of_prefix_length_le here there shorter)
  · exact apart' (List.prefix_of_prefix_length_le there here longer)

/-- Where nothing was below the new place, moving back leaves only that place without what was
there. -/
theorem shifted_back (apart : ¬ old <+: new) (apart' : ¬ new <+: old)
    (barren : ∀ rest, rest ≠ [] → look (new ++ rest) = none) (place : Place) :
    shifted new old (shifted old new look) place = if place = new then none else look place := by
  by_cases own : old <+: place
  · obtain ⟨rest, rfl⟩ := own
    rw [shifted_target, shifted_target, if_neg ?_]
    intro same
    exact apart ⟨rest, same⟩
  by_cases there : new <+: place
  · rw [shifted_source there own]
    obtain ⟨rest, rfl⟩ := there
    split
    · rfl
    · next below => exact (barren rest (by simpa using below)).symm
  · rw [shifted_of_apart there own, shifted_of_apart own there, if_neg]
    rintro rfl
    exact there List.prefix_rfl

/-! ### Renaming -/

/-- The tree after a rename to a place with nothing below. -/
theorem lookup_renamed (tree : Tree) (named : old ≠ []) (named' : new ≠ []) (apart : ¬ old <+: new)
    (barren : ∀ rest, rest ≠ [] → tree.lookup (new ++ rest) = none) (place : Place) :
    ((tree.erase new).move old new).lookup place = shifted old new tree.lookup place := by
  have erased := tree.lookup_erase named'
  have free : ∀ rest, (tree.erase new).lookup (new ++ rest) = none := by
    intro rest
    rw [erased]
    split
    · rfl
    · next below => exact barren rest (by simpa using below)
  by_cases there : new <+: place
  · obtain ⟨rest, rfl⟩ := there
    rw [Tree.lookup_move_target _ named named' free, shifted_target, erased, if_neg]
    intro same
    exact apart ⟨rest, same⟩
  by_cases own : old <+: place
  · rw [Tree.lookup_move_source _ named own there, shifted_source own there]
  · rw [Tree.lookup_move_of_apart _ own there, shifted_of_apart own there, erased, if_neg]
    rintro rfl
    exact there List.prefix_rfl

/-! ### Renaming and renaming back -/

theorem directory_above {tree : Tree} (grounded : tree.Grounded)
    (home : tree.lookup place = some .directory) (above : old <+: place) :
    tree.lookup old = some .directory := by
  obtain ⟨rest, rfl⟩ := above
  by_cases here : rest = []
  · rwa [here, List.append_nil] at home
  · exact grounded.above here (by rw [home]; nofun)

theorem spot_of_leads_named (leads : disk.leads path = some (place, true)) :
    disk.spot false path = .ok ⟨place, disk.tree.lookup place, true⟩ := by
  rw [Disk.leads] at leads
  cases asked : disk.spot false path with
  | error failure =>
    rw [asked] at leads
    cases leads
  | ok found =>
    rw [asked] at leads
    obtain ⟨there, node, named⟩ := found
    cases leads
    have stands : disk.tree.lookup there = node := lookup_of_named (spot_ok_iff.mp asked).2 rfl
    rw [stands]

/-- A rename that moved something to another place, to which paths led that still lead where they
led or nowhere. -/
structure Parks (first second : Disk) (source target : String) (old new : Place) : Prop where
  current : second.current = first.current
  from_source : first.leads source = some (old, true)
  to_target : first.leads target = some (new, true)
  inside : ¬ old <+: new
  outside : ¬ new <+: old
  barren : ∀ rest, rest ≠ [] → first.tree.lookup (new ++ rest) = none
  lookup : ∀ place, second.tree.lookup place = shifted old new first.tree.lookup place
  altered : first.tree.Altered second.tree
  stands : ∃ node, first.tree.lookup old = some node ∧ (node ≠ .directory →
    Path.endsInSlash source = false ∧ Path.endsInSlash target = false)

/-- What is known of a place that something may be moved to. -/
theorem barren_of_obstacle (sound : disk.Sound)
    (free : renameObstacle disk.tree new node (disk.tree.lookup new) = none) {rest : Place}
    (below : rest ≠ []) : disk.tree.lookup (new ++ rest) = none := by
  by_cases directory : disk.tree.lookup new = some .directory
  · rw [directory] at free
    cases node with
    | directory =>
      refine Tree.lookup_of_hasEntries_eq_false ?_ below
      simpa [renameObstacle] using free
    | file | link => cases free
  · exact sound.grounded.barren directory below

/-- A rename leaves everything where it is, or it moves something that is not above its target, nor
below it. -/
theorem exists_of_rename (sound : first.Sound) (h : first.rename source target = .ok second) :
    ∃ old new node, first.leads source = some (old, true) ∧ first.leads target = some (new, true) ∧
      first.tree.lookup old = some node ∧
      (node ≠ .directory → Path.endsInSlash source = false ∧ Path.endsInSlash target = false) ∧
      second.current = first.current ∧
      (old = new ∧ second = first ∨ ¬ old <+: new ∧ ¬ new <+: old ∧
        renameObstacle first.tree new node (first.tree.lookup new) = none ∧
        ∀ place, second.tree.lookup place = shifted old new first.tree.lookup place) := by
  obtain ⟨old, new, node, there, from_source, to_target, slash, moved⟩ := rename_ok_iff.mp h
  have stands : first.tree.lookup old = some node := (sound.spot from_source).node
  have was : first.tree.lookup new = there := (sound.spot to_target).node
  refine ⟨old, new, node, leads_of_spot from_source, leads_of_spot to_target, stands, slash, ?_⟩
  rcases moved with ⟨rfl, rfl⟩ | ⟨inside, outside, free, rfl⟩
  · exact ⟨rfl, Or.inl ⟨rfl, rfl⟩⟩
  have apart : ¬ old <+: new := by
    intro below
    obtain ⟨above, name, split, home⟩ := (sound.spot to_target).parent rfl
    simp only at split
    subst split
    rcases List.prefix_concat_iff.mp below with same | higher
    · exact outside (same ▸ List.prefix_rfl)
    · have directory := directory_above sound.grounded home higher
      rw [stands] at directory
      exact inside (Option.some.inj directory) below
  have named : old ≠ [] := by
    rintro rfl
    exact apart List.nil_prefix
  have named' : new ≠ [] := by
    rintro rfl
    exact outside List.nil_prefix
  rw [← was] at free
  have barren : ∀ rest, rest ≠ [] → first.tree.lookup (new ++ rest) = none :=
    fun rest below => barren_of_obstacle sound free below
  exact ⟨rfl, Or.inr ⟨apart, outside, free, lookup_renamed first.tree named named' apart barren⟩⟩

/-- When it is renamed back, only what was at the new place is missing. -/
theorem Parks.back (parks : Parks first second source target old new)
    (h : second.rename target source = .ok third) :
    third.current = first.current ∧ ∀ place, third.tree.lookup place =
      if place = new then none else first.tree.lookup place := by
  obtain ⟨left, back, node, there, from_target, to_source, -, moved⟩ := rename_ok_iff.mp h
  have here := leads_eq_of_altered parks.current parks.altered parks.to_target
    (leads_of_spot from_target)
  have there := leads_eq_of_altered parks.current parks.altered parks.from_source
    (leads_of_spot to_source)
  obtain rfl : new = left := (congrArg Prod.fst here).symm
  obtain rfl : old = back := (congrArg Prod.fst there).symm
  rcases moved with ⟨rfl, -⟩ | ⟨-, -, -, rfl⟩
  · exact absurd List.prefix_rfl parks.inside
  refine ⟨parks.current, fun place => ?_⟩
  have named : old ≠ [] := by
    rintro rfl
    exact parks.inside List.nil_prefix
  have named' : new ≠ [] := by
    rintro rfl
    exact parks.outside List.nil_prefix
  have vacated : ∀ rest, rest ≠ [] → second.tree.lookup (old ++ rest) = none := by
    intro rest _
    rw [parks.lookup]
    exact shifted_source (List.prefix_append _ _)
      (apart_of_below parks.inside parks.outside (List.prefix_append _ _))
  have whole : second.tree.lookup = shifted old new first.tree.lookup := funext parks.lookup
  rw [lookup_renamed second.tree named' named parks.outside vacated, whole,
    shifted_back parks.inside parks.outside parks.barren]

/-- It can be renamed back as long as both paths lead somewhere. -/
theorem Parks.exists_back {found found' : Place × Bool}
    (parks : Parks first second source target old new) (leads : second.leads source = some found)
    (leads' : second.leads target = some found') :
    ∃ third, second.rename target source = .ok third := by
  cases leads_eq_of_altered parks.current parks.altered parks.from_source leads
  cases leads_eq_of_altered parks.current parks.altered parks.to_target leads'
  obtain ⟨node, stands, slash⟩ := parks.stands
  have moved : second.tree.lookup new = some node := by
    have whole := shifted_target old new [] first.tree.lookup
    rw [List.append_nil, List.append_nil] at whole
    rw [parks.lookup, whole, stands]
  have vacated : second.tree.lookup old = none := by
    rw [parks.lookup]
    exact shifted_source List.prefix_rfl parks.outside
  have spots : second.spot false target = .ok ⟨new, some node, true⟩ ∧
      second.spot false source = .ok ⟨old, none, true⟩ :=
    ⟨moved ▸ spot_of_leads_named leads', vacated ▸ spot_of_leads_named leads⟩
  refine ⟨_, rename_ok_iff.mpr ⟨new, old, node, none, spots.1, spots.2,
    fun file => (slash file).symm, Or.inr ⟨fun _ => parks.outside, parks.inside, ?_, rfl⟩⟩⟩
  cases node <;> rfl

end Disk

end StyleMonitor
