import Mathlib.Data.List.Induction
import Mathlib.Data.List.Infix
import StyleMonitor.Disk.Tree

/-!
# What stands where in a tree

In a grounded tree all that stands somewhere stands in a directory. So there is nothing below a
place where no directory stands, and a file that is moved takes nothing with it. Two trees are
alike when they differ only in files that the one has and the other has not, or has with another
content.
-/

namespace StyleMonitor

namespace Node

/-- Whether nothing stands at a place, or a file. -/
def IsLeaf (node : Option Node) : Prop :=
  node = none ∨ ∃ content executable, node = some (.file content executable)

theorem isLeaf_none : IsLeaf none := Or.inl rfl

theorem isLeaf_file (content : Bytes) (executable : Bool) :
    IsLeaf (some (.file content executable)) :=
  Or.inr ⟨content, executable, rfl⟩

theorem IsLeaf.ne_directory {node : Option Node} (leaf : IsLeaf node) : node ≠ some directory := by
  rintro rfl
  rcases leaf with none | ⟨content, executable, file⟩
  · cases none
  · cases file

theorem IsLeaf.ne_link {node : Option Node} (leaf : IsLeaf node) (target : String) :
    node ≠ some (link target) := by
  rintro rfl
  rcases leaf with none | ⟨content, executable, file⟩
  · cases none
  · cases file

end Node

namespace Tree

variable {tree : Tree} {place other source target : Place} {name : String} {node : Node}

theorem lookup_insert (tree : Tree) (named : place ≠ []) (node : Node) (other : Place) :
    (tree.insert place node).lookup other =
      if other = place then some node else tree.lookup other := by
  split
  · next same =>
    subst same
    exact lookup_insert_self tree named node
  · next apart => exact lookup_insert_of_ne tree apart node

theorem lookup_erase (tree : Tree) (named : place ≠ []) (other : Place) :
    (tree.erase place).lookup other = if other = place then none else tree.lookup other := by
  by_cases root : other = []
  · subst root
    rw [lookup_root, lookup_root, if_neg (Ne.symm named)]
  · rw [lookup, lookup, if_neg root, if_neg root, erase]
    split
    · next same =>
      subst same
      exact lookup_eraseNode_self other tree.nodes
    · next apart => exact lookup_eraseNode_of_ne apart tree.nodes

theorem lookup_ne_none_of_mem {entry : Place × Node} (member : entry ∈ tree.nodes) :
    tree.lookup entry.1 ≠ none := by
  by_cases root : entry.1 = []
  · rw [root, lookup_root]
    nofun
  · rw [lookup, if_neg root, Ne, List.lookup_eq_none_iff]
    intro missing
    simpa using missing entry member

/-! ### Grounded trees -/

/-- All that stands somewhere stands in a directory. -/
def Grounded (tree : Tree) : Prop :=
  ∀ place name, tree.lookup (place ++ [name]) ≠ none → tree.lookup place = some .directory

theorem grounded_of_mem (listed : ∀ entry ∈ tree.nodes,
    tree.lookup entry.1.dropLast = some .directory) : tree.Grounded := by
  intro place name stands
  rw [lookup, if_neg (by simp), Ne, List.lookup_eq_none_iff] at stands
  obtain ⟨entry, member, same⟩ : ∃ entry ∈ tree.nodes, place ++ [name] = entry.1 := by
    simpa using stands
  have above := listed entry member
  rw [← same, List.dropLast_concat] at above
  exact above

/-- Above all that stands somewhere there are directories. -/
theorem Grounded.above (grounded : tree.Grounded) {rest : Place} (below : rest ≠ [])
    (stands : tree.lookup (place ++ rest) ≠ none) : tree.lookup place = some .directory := by
  induction rest using List.reverseRecOn with
  | nil => exact absurd rfl below
  | append_singleton front name ih =>
    rw [← List.append_assoc] at stands
    have parent := grounded (place ++ front) name stands
    cases front with
    | nil => simpa using parent
    | cons first more =>
      apply ih (List.cons_ne_nil first more)
      rw [parent]
      nofun

/-- Nothing stands below a place where no directory stands. -/
theorem Grounded.barren (grounded : tree.Grounded) (none : tree.lookup place ≠ some .directory)
    {rest : Place} (below : rest ≠ []) : tree.lookup (place ++ rest) = .none := by
  by_contra stands
  exact none (grounded.above below stands)

theorem lookup_relocate {nodes : List (Place × Node)} (free : ∀ entry ∈ nodes, entry.1 ≠ target)
    (alone : ∀ entry ∈ nodes, source.isPrefixOf entry.1 = true → entry.1 = source)
    (other : Place) :
    (nodes.map fun entry => (relocate source target entry.1, entry.2)).lookup other =
      if other = target then nodes.lookup source
      else if other = source then none else nodes.lookup other := by
  induction nodes with
  | nil => simp
  | cons entry rest ih =>
    obtain ⟨listed, node⟩ := entry
    have ih := ih (fun other there => free other (List.mem_cons_of_mem _ there))
      fun other there => alone other (List.mem_cons_of_mem _ there)
    rw [List.map_cons, List.lookup_cons, ih]
    by_cases moved : listed = source
    · subst moved
      have goes : relocate listed target listed = target := by
        have own : listed.isPrefixOf listed = true := by simp
        rw [relocate, if_pos own, List.drop_length, List.append_nil]
      rw [goes]
      by_cases here : other = target
      · simp [here]
      · have differs : (other == target) = false := by simpa using here
        rw [differs, if_neg here, if_neg here]
        by_cases left : other = listed
        · simp [left]
        · have apart : (other == listed) = false := by simpa using left
          simp [List.lookup_cons, apart, left]
    · have stays : relocate source target listed = listed := by
        rw [relocate, if_neg fun below => moved (alone _ List.mem_cons_self below)]
      rw [stays]
      by_cases here : other = listed
      · subst here
        simp [free _ List.mem_cons_self, moved]
      · have differs : (other == listed) = false := by simpa using here
        have apart : (source == listed) = false := by simpa using Ne.symm moved
        simp [List.lookup_cons, differs, apart]

/-- Above a directory there is a directory. -/
theorem Grounded.dropLast (grounded : tree.Grounded)
    (home : tree.lookup place = some .directory) :
    tree.lookup place.dropLast = some .directory := by
  induction place using List.reverseRecOn with
  | nil => exact home
  | append_singleton front name =>
    rw [List.dropLast_concat]
    apply grounded front name
    rw [home]
    nofun

/-- A file that takes the place of what is no directory leaves its own. -/
theorem lookup_erase_move (grounded : tree.Grounded) (file : Node.IsLeaf (tree.lookup source))
    (gives : tree.lookup target ≠ some .directory) (apart : source ≠ target) (other : Place) :
    ((tree.erase target).move source target).lookup other =
      if other = target then tree.lookup source
      else if other = source then none else tree.lookup other := by
  have below : ∀ place, tree.lookup place ≠ some .directory → place ≠ [] := by
    rintro _ other rfl
    exact other (lookup_root tree)
  have named := below source file.ne_directory
  have alone : ∀ entry ∈ (tree.erase target).nodes,
      source.isPrefixOf entry.1 = true → entry.1 = source := by
    intro entry member starts
    obtain ⟨rest, split⟩ := List.isPrefixOf_iff_prefix.mp starts
    by_contra longer
    have stands := lookup_ne_none_of_mem (List.mem_of_mem_filter member)
    rw [← split] at stands
    refine stands (grounded.barren file.ne_directory ?_)
    rintro rfl
    exact longer (by simpa using split.symm)
  have free : ∀ entry ∈ (tree.erase target).nodes, entry.1 ≠ target := by
    intro entry member
    simpa using (List.mem_filter.mp member).2
  by_cases root : other = []
  · subst root
    rw [lookup_root, if_neg (Ne.symm (below target gives)), if_neg (Ne.symm named), lookup_root]
  · have erased := lookup_erase tree (below target gives)
    have own : (tree.erase target).nodes.lookup source = tree.lookup source := by
      have same := erased source
      rwa [if_neg apart, lookup, if_neg named] at same
    rw [lookup, if_neg root, move, lookup_relocate free alone, own]
    split
    · rfl
    split
    · rfl
    · next elsewhere _ =>
      have same := erased other
      rwa [if_neg elsewhere, lookup, if_neg root] at same

/-! ### Trees that differ in files -/

/-- The trees differ only where in both of them a file stands or nothing. -/
def Alike (first second : Tree) : Prop :=
  ∀ place, second.lookup place = first.lookup place ∨
    Node.IsLeaf (first.lookup place) ∧ Node.IsLeaf (second.lookup place)

variable {first second third : Tree}

theorem Alike.leaf (alike : first.Alike second) (leaf : Node.IsLeaf (first.lookup place)) :
    Node.IsLeaf (second.lookup place) := by
  rcases alike place with same | ⟨-, other⟩
  · rwa [same]
  · exact other

/-- Where something else than a file stands, it stands in both trees. -/
theorem Alike.lookup_eq (alike : first.Alike second)
    (other : ¬ Node.IsLeaf (first.lookup place)) : second.lookup place = first.lookup place :=
  (alike place).resolve_right fun leaves => other leaves.1

theorem Alike.directory (alike : first.Alike second)
    (stands : first.lookup place = some .directory) : second.lookup place = some .directory := by
  rw [alike.lookup_eq fun leaf => leaf.ne_directory stands, stands]

/-- A tree in which one leaf is exchanged for another is alike. -/
theorem alike_of_lookup {node : Option Node} (leaf : Node.IsLeaf (first.lookup place))
    (new : Node.IsLeaf node)
    (h : ∀ other, second.lookup other = if other = place then node else first.lookup other) :
    first.Alike second := by
  intro other
  rw [h]
  split
  · next same =>
    subst same
    exact Or.inr ⟨leaf, new⟩
  · exact Or.inl rfl

/-- A tree stays grounded when something is put into a directory in place of a leaf. -/
theorem Grounded.of_lookup {node : Option Node} (grounded : first.Grounded)
    (leaf : Node.IsLeaf (first.lookup place))
    (inside : node ≠ none → ∀ parent name, place = parent ++ [name] →
      first.lookup parent = some .directory)
    (h : ∀ other, second.lookup other = if other = place then node else first.lookup other) :
    second.Grounded := by
  intro parent name stands
  rw [h] at stands ⊢
  have apart : parent ≠ place → first.lookup parent = some .directory →
      (if parent = place then node else first.lookup parent) = some .directory := by
    intro apart stands
    rw [if_neg apart, stands]
  by_cases child : parent ++ [name] = place
  · rw [if_pos child] at stands
    refine apart ?_ (inside stands parent name child.symm)
    rintro rfl
    simp at child
  · rw [if_neg child] at stands
    have above := grounded parent name stands
    refine apart ?_ above
    rintro rfl
    exact leaf.ne_directory above

end Tree

end StyleMonitor
