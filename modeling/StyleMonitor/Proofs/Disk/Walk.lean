import StyleMonitor.Disk.Walk
import StyleMonitor.Proofs.Disk.Tree

/-!
# Where a walk leads

A walk that succeeds ends at a place in a directory, or at a directory. It ends at the same place
in a tree that is alike; and when a directory is made where a walk found nothing, a longer walk
goes on from there and finds nothing below.
-/

namespace StyleMonitor.Disk

variable {tree first second made : Tree} {follow : Bool} {links : Nat} {start place : Place}
  {name : String} {names rest : List String} {spot : Spot}

/-! ### One name at a time -/

/-- A name that can be looked up in a directory. -/
structure Fits (name : String) : Prop where
  ne_here : name ≠ "."
  ne_parent : name ≠ ".."
  short : ¬ maxName < Text.size name

/-- What a walk meets at a name. -/
inductive Meets (tree : Tree) (start : Place) : String → Prop where
  | here : Meets tree start "."
  | parent : Meets tree start ".."
  | long {name : String} (here : name ≠ ".") (parent : name ≠ "..")
    (long : maxName < Text.size name) : Meets tree start name
  | missing {name : String} (fits : Fits name) (h : tree.lookup (start ++ [name]) = none) :
    Meets tree start name
  | directory {name : String} (fits : Fits name)
    (h : tree.lookup (start ++ [name]) = some .directory) : Meets tree start name
  | file {name : String} (content : Bytes) (executable : Bool) (fits : Fits name)
    (h : tree.lookup (start ++ [name]) = some (.file content executable)) : Meets tree start name
  | link {name : String} (target : String) (fits : Fits name)
    (h : tree.lookup (start ++ [name]) = some (.link target)) : Meets tree start name

theorem meets (tree : Tree) (start : Place) (name : String) : Meets tree start name := by
  by_cases here : name = "."
  · subst here
    exact .here
  by_cases parent : name = ".."
  · subst parent
    exact .parent
  by_cases long : maxName < Text.size name
  · exact .long here parent long
  cases h : tree.lookup (start ++ [name]) with
  | none => exact .missing ⟨here, parent, long⟩ h
  | some node =>
    cases node with
    | directory => exact .directory ⟨here, parent, long⟩ h
    | file content executable => exact .file content executable ⟨here, parent, long⟩ h
    | link target => exact .link target ⟨here, parent, long⟩ h

/-- How a walk goes on from a link, if it may follow another one. -/
def beyond (tree : Tree) (follow : Bool) : Nat → Place → List String → Except Cause Spot
  | 0, _, _ => .error .tooManyLinks
  | links + 1, start, names => walk tree follow links start names

theorem walk_eq : walk tree follow links start names =
    walkBetweenLinks tree follow (beyond tree follow links) start names := by
  cases links with
  | zero => rfl
  | succ links => rfl

theorem walk_nil : walk tree follow links start [] = .ok ⟨start, some .directory, false⟩ := by
  rw [walk_eq, walkBetweenLinks]

theorem walk_here : walk tree follow links start ("." :: rest) =
    walk tree follow links start rest := by
  rw [walk_eq, walkBetweenLinks, if_pos rfl, walk_eq]

theorem walk_parent : walk tree follow links start (".." :: rest) =
    walk tree follow links start.dropLast rest := by
  rw [walk_eq, walkBetweenLinks, if_neg (by decide), if_pos rfl, walk_eq]

theorem walk_long (here : name ≠ ".") (parent : name ≠ "..") (long : maxName < Text.size name) :
    walk tree follow links start (name :: rest) = .error .nameTooLong := by
  rw [walk_eq, walkBetweenLinks, if_neg here, if_neg parent, if_pos long]

theorem walk_missing (fits : Fits name) (h : tree.lookup (start ++ [name]) = none) :
    walk tree follow links start (name :: rest) =
      if rest = [] then .ok ⟨start ++ [name], none, true⟩ else .error .notFound := by
  rw [walk_eq, walkBetweenLinks, if_neg fits.ne_here, if_neg fits.ne_parent, if_neg fits.short]
  simp only [h]

theorem walk_directory (fits : Fits name) (h : tree.lookup (start ++ [name]) = some .directory) :
    walk tree follow links start (name :: rest) =
      if rest = [] then .ok ⟨start ++ [name], some .directory, true⟩
      else walk tree follow links (start ++ [name]) rest := by
  rw [walk_eq, walkBetweenLinks, if_neg fits.ne_here, if_neg fits.ne_parent, if_neg fits.short,
    walk_eq]
  simp only [h]

theorem walk_file {content : Bytes} {executable : Bool} (fits : Fits name)
    (h : tree.lookup (start ++ [name]) = some (.file content executable)) :
    walk tree follow links start (name :: rest) =
      if rest = [] then .ok ⟨start ++ [name], some (.file content executable), true⟩
      else .error .notADirectory := by
  rw [walk_eq, walkBetweenLinks, if_neg fits.ne_here, if_neg fits.ne_parent, if_neg fits.short]
  simp only [h]

theorem walk_link {target : String} (fits : Fits name)
    (h : tree.lookup (start ++ [name]) = some (.link target)) :
    walk tree follow links start (name :: rest) =
      if rest = [] ∧ follow = false then .ok ⟨start ++ [name], some (.link target), true⟩
      else beyond tree follow links (if Path.isAbsolute target then [] else start)
        (Disk.names target ++ rest) := by
  rw [walk_eq, walkBetweenLinks, if_neg fits.ne_here, if_neg fits.ne_parent, if_neg fits.short]
  simp only [h]

/-- At a last name that is no link to follow, a walk ends. -/
theorem walk_last (fits : Fits name)
    (ends : follow = true → ∀ target, tree.lookup (start ++ [name]) ≠ some (.link target)) :
    walk tree follow links start [name] =
      .ok ⟨start ++ [name], tree.lookup (start ++ [name]), true⟩ := by
  cases meets tree start name with
  | here => exact absurd rfl fits.ne_here
  | parent => exact absurd rfl fits.ne_parent
  | long _ _ long => exact absurd long fits.short
  | missing _ stands => rw [walk_missing fits stands, if_pos rfl, stands]
  | directory _ stands => rw [walk_directory fits stands, if_pos rfl, stands]
  | file content executable _ stands => rw [walk_file fits stands, if_pos rfl, stands]
  | link target _ stands =>
    have unfollowed : follow = false := by
      by_contra follows
      exact ends (by simpa using follows) target stands
    rw [walk_link fits stands, if_pos ⟨rfl, unfollowed⟩, stands]

/-- A walk takes its names one by one, and at a link it goes on with fewer links to follow. -/
theorem walk_induction {motive : Nat → Place → List String → Prop}
    (nil : ∀ links start, motive links start [])
    (cons : ∀ links start name rest, (∀ start, motive links start rest) →
      (∀ fewer, links = fewer + 1 → ∀ start names, motive fewer start names) →
      motive links start (name :: rest)) (links : Nat) (start : Place) (names : List String) :
    motive links start names := by
  induction links generalizing start names with
  | zero =>
    induction names generalizing start with
    | nil => exact nil 0 start
    | cons name rest ih => exact cons 0 start name rest ih nofun
  | succ links through =>
    induction names generalizing start with
    | nil => exact nil (links + 1) start
    | cons name rest ih =>
      refine cons (links + 1) start name rest ih fun fewer same => ?_
      cases same
      exact through

/-! ### Walks that lead somewhere -/

/-- How a walk comes to its end: through directories, and from links on with fewer links to
follow. -/
inductive Walks (tree : Tree) (follow : Bool) : Nat → Place → List String → Spot → Prop where
  | nil (links : Nat) (start : Place) :
    Walks tree follow links start [] ⟨start, some .directory, false⟩
  | here {links : Nat} {start : Place} {rest : List String} {spot : Spot}
    (onward : Walks tree follow links start rest spot) :
    Walks tree follow links start ("." :: rest) spot
  | parent {links : Nat} {start : Place} {rest : List String} {spot : Spot}
    (onward : Walks tree follow links start.dropLast rest spot) :
    Walks tree follow links start (".." :: rest) spot
  | last {links : Nat} {start : Place} {name : String} (fits : Fits name)
    (ends : follow = true → ∀ target, tree.lookup (start ++ [name]) ≠ some (.link target)) :
    Walks tree follow links start [name] ⟨start ++ [name], tree.lookup (start ++ [name]), true⟩
  | directory {links : Nat} {start : Place} {name : String} {rest : List String} {spot : Spot}
    (fits : Fits name) (stands : tree.lookup (start ++ [name]) = some .directory)
    (more : rest ≠ []) (onward : Walks tree follow links (start ++ [name]) rest spot) :
    Walks tree follow links start (name :: rest) spot
  | link {links : Nat} {start : Place} {name target : String} {rest : List String} {spot : Spot}
    (fits : Fits name) (stands : tree.lookup (start ++ [name]) = some (.link target))
    (more : rest ≠ [] ∨ follow = true)
    (onward : Walks tree follow links (if Path.isAbsolute target then [] else start)
      (Disk.names target ++ rest) spot) :
    Walks tree follow (links + 1) start (name :: rest) spot

theorem walks_of_ok (h : walk tree follow links start names = .ok spot) :
    Walks tree follow links start names spot := by
  induction links, start, names using walk_induction with
  | nil links start =>
    rw [walk_nil] at h
    cases h
    exact .nil links start
  | cons links start name rest ih through =>
    cases meets tree start name with
    | here =>
      rw [walk_here] at h
      exact .here (ih start h)
    | parent =>
      rw [walk_parent] at h
      exact .parent (ih start.dropLast h)
    | long here parent long =>
      rw [walk_long here parent long] at h
      cases h
    | missing fits stands =>
      rw [walk_missing fits stands] at h
      split at h
      · next ends =>
        cases h
        rw [ends, ← stands]
        exact .last fits fun _ target link => by cases stands.symm.trans link
      · cases h
    | directory fits stands =>
      rw [walk_directory fits stands] at h
      split at h
      · next ends =>
        cases h
        rw [ends, ← stands]
        exact .last fits fun _ target link => by cases stands.symm.trans link
      · next more => exact .directory fits stands more (ih _ h)
    | file content executable fits stands =>
      rw [walk_file fits stands] at h
      split at h
      · next ends =>
        cases h
        rw [ends, ← stands]
        exact .last fits fun _ target link => by cases stands.symm.trans link
      · cases h
    | link target fits stands =>
      rw [walk_link fits stands] at h
      split at h
      · next ends =>
        cases h
        rw [ends.1, ← stands]
        exact .last fits fun follows => by cases ends.2.symm.trans follows
      · next goes =>
        cases links with
        | zero => cases h
        | succ links =>
          have more : rest ≠ [] ∨ follow = true := by
            rw [← Bool.not_eq_false, ← not_and_or]
            exact goes
          exact .link fits stands more (through links rfl _ _ h)

namespace Walks

theorem ok (walks : Walks tree follow links start names spot) :
    walk tree follow links start names = .ok spot := by
  induction walks with
  | nil => exact walk_nil
  | here _ ih => rw [walk_here, ih]
  | parent _ ih => rw [walk_parent, ih]
  | last fits ends => exact walk_last fits ends
  | directory fits stands more _ ih => rw [walk_directory fits stands, if_neg more, ih]
  | link fits stands more _ ih =>
    rw [walk_link fits stands, if_neg, beyond, ih]
    rintro ⟨none, unfollowed⟩
    cases more with
    | inl some => exact some none
    | inr follows => cases unfollowed.symm.trans follows

/-- A walk that ends in a name has one to take. -/
theorem ne_nil (walks : Walks tree follow links start names spot) (named : spot.named = true) :
    names ≠ [] := by
  rintro rfl
  cases walks
  cases named

end Walks

/-- A walk without names stays where it is. -/
theorem walk_nowhere (none : names.filter (· ≠ ".") = []) :
    walk tree follow links start names = .ok ⟨start, some .directory, false⟩ := by
  induction names with
  | nil => exact walk_nil
  | cons name rest ih =>
    by_cases here : name = "."
    · subst here
      rw [walk_here]
      exact ih (by rwa [List.filter_cons_of_neg (by simp)] at none)
    · rw [List.filter_cons_of_pos (by simpa using here)] at none
      cases none

/-! ### The end of a walk -/

/-- What is known of the end of a walk. -/
structure Spot.Sound (tree : Tree) (spot : Spot) : Prop where
  node : tree.lookup spot.place = spot.node
  unnamed : spot.named = false → spot.node = some .directory
  parent : spot.named = true →
    ∃ above name, spot.place = above ++ [name] ∧ tree.lookup above = some .directory

theorem walk_sound (grounded : tree.Grounded) (home : tree.lookup start = some .directory)
    (h : walk tree follow links start names = .ok spot) : spot.Sound tree := by
  have walks := walks_of_ok h
  clear h
  induction walks with
  | nil => exact ⟨home, fun _ => rfl, nofun⟩
  | here _ ih => exact ih home
  | parent _ ih => exact ih (grounded.dropLast home)
  | @last _ start name => exact ⟨rfl, nofun, fun _ => ⟨start, name, rfl, home⟩⟩
  | directory _ stands _ _ ih => exact ih stands
  | link _ _ _ _ ih =>
    refine ih ?_
    split
    · exact Tree.lookup_root tree
    · exact home

/-- Whether a link at the end is followed does not matter where no link is at the end. -/
theorem walk_follow (last : ∀ spot target, walk tree false links start names = .ok spot →
    spot.node ≠ some (.link target)) :
    walk tree true links start names = walk tree false links start names := by
  induction links, start, names using walk_induction with
  | nil links start => rw [walk_nil, walk_nil]
  | cons links start name rest ih through =>
    cases meets tree start name with
    | here =>
      rw [walk_here] at last ⊢
      rw [walk_here]
      exact ih start last
    | parent =>
      rw [walk_parent] at last ⊢
      rw [walk_parent]
      exact ih start.dropLast last
    | long here parent long => rw [walk_long here parent long, walk_long here parent long]
    | missing fits stands => rw [walk_missing fits stands, walk_missing fits stands]
    | directory fits stands =>
      rw [walk_directory fits stands] at last ⊢
      rw [walk_directory fits stands]
      split
      · rfl
      · next more =>
        rw [if_neg more] at last
        exact ih _ last
    | file content executable fits stands => rw [walk_file fits stands, walk_file fits stands]
    | link target fits stands =>
      rw [walk_link fits stands] at last ⊢
      rw [walk_link fits stands]
      by_cases ends : rest = []
      · rw [if_pos ⟨ends, rfl⟩] at last
        exact absurd rfl (last _ target rfl)
      · have more : ¬ (rest = [] ∧ false = false) := fun both => ends both.1
        rw [if_neg more] at last ⊢
        rw [if_neg fun both => ends both.1]
        cases links with
        | zero => rfl
        | succ links => exact through links rfl _ _ last

/-- The name that names end in, which a walk has come to at a place. -/
def EndsIn (names : List String) (place : Place) : Prop :=
  ∃ name, names.getLast? = some name ∧ place.getLast? = some name ∧ Fits name

theorem EndsIn.of_rest (h : EndsIn rest place) (more : rest ≠ []) (front : List String) :
    EndsIn (front ++ rest) place := by
  obtain ⟨name, last, place, fits⟩ := h
  refine ⟨name, ?_, place, fits⟩
  rw [List.getLast?_append_of_ne_nil _ more, last]

theorem EndsIn.of_append (h : EndsIn (names ++ rest) place) (more : rest ≠ []) :
    EndsIn rest place := by
  obtain ⟨name, last, place, fits⟩ := h
  rw [List.getLast?_append_of_ne_nil _ more] at last
  exact ⟨name, last, place, fits⟩

/-- A place that is reached by a name has that name. -/
theorem walk_endsIn (h : walk tree false links start names = .ok spot)
    (named : spot.named = true) : EndsIn names spot.place := by
  have walks := walks_of_ok h
  clear h
  induction walks with
  | nil => cases named
  | here onward ih => exact (ih named).of_rest (onward.ne_nil named) ["."]
  | parent onward ih => exact (ih named).of_rest (onward.ne_nil named) [".."]
  | @last _ start name fits => exact ⟨name, rfl, List.getLast?_concat, fits⟩
  | @directory _ _ name _ _ _ _ more _ ih => exact (ih named).of_rest more [name]
  | @link _ _ name _ _ _ _ _ more _ ih =>
    have more := more.resolve_right nofun
    exact ((ih named).of_append more).of_rest more [name]

/-! ### Trees that are alike -/

/-- The place that a walk leads to, and whether it ends in a name. -/
def reached (result : Except Cause Spot) : Option (Place × Bool) :=
  result.toOption.map fun spot => (spot.place, spot.named)

theorem exists_of_reached {result : Except Cause Spot} {found : Place × Bool}
    (h : reached result = some found) :
    ∃ spot, result = .ok spot ∧ (spot.place, spot.named) = found := by
  cases result with
  | error cause => cases h
  | ok spot => exact ⟨spot, rfl, Option.some.inj h⟩

/-- What a walk meets at a leaf: its end, or an end to all walking. -/
theorem walk_leaf (fits : Fits name) (leaf : Node.IsLeaf (tree.lookup (start ++ [name]))) :
    reached (walk tree follow links start (name :: rest)) =
      if rest = [] then some (start ++ [name], true) else none := by
  rcases leaf with stands | ⟨content, executable, stands⟩
  · rw [walk_missing fits stands]
    split <;> rfl
  · rw [walk_file fits stands]
    split <;> rfl

theorem walk_alike (alike : first.Alike second) (follow : Bool) (links : Nat) (start : Place)
    (names : List String) :
    reached (walk first follow links start names) =
      reached (walk second follow links start names) := by
  induction links, start, names using walk_induction with
  | nil links start => rw [walk_nil, walk_nil]
  | cons links start name rest ih through =>
    cases meets first start name with
    | here => rw [walk_here, walk_here, ih]
    | parent => rw [walk_parent, walk_parent, ih]
    | long here parent long => rw [walk_long here parent long, walk_long here parent long]
    | missing fits stands =>
      have leaf : Node.IsLeaf (first.lookup (start ++ [name])) := Or.inl stands
      rw [walk_leaf fits leaf, walk_leaf fits (alike.leaf leaf)]
    | directory fits stands =>
      rw [walk_directory fits stands, walk_directory fits (alike.directory stands)]
      split
      · rfl
      · exact ih _
    | file content executable fits stands =>
      have leaf : Node.IsLeaf (first.lookup (start ++ [name])) := Or.inr ⟨_, _, stands⟩
      rw [walk_leaf fits leaf, walk_leaf fits (alike.leaf leaf)]
    | link target fits stands =>
      have same : second.lookup (start ++ [name]) = some (.link target) := by
        rw [alike.lookup_eq fun leaf => leaf.ne_link target stands, stands]
      rw [walk_link fits stands, walk_link fits same]
      split
      · rfl
      · cases links with
        | zero => rfl
        | succ links => exact through links rfl _ _

/-! ### Trees in which more stands -/

/-- What a walk has come to is still there when only more stands in the tree. -/
theorem Walks.grows (walks : Walks first follow links start names spot)
    (more : ∀ place node, first.lookup place = some node → second.lookup place = some node)
    (some : spot.node ≠ none) : Walks second follow links start names spot := by
  induction walks with
  | nil links start => exact .nil links start
  | here _ ih => exact .here (ih some)
  | parent _ ih => exact .parent (ih some)
  | @last _ start name fits ends =>
    obtain ⟨node, stands⟩ := Option.ne_none_iff_exists'.mp some
    have same : second.lookup (start ++ [name]) = first.lookup (start ++ [name]) :=
      (more _ node stands).trans stands.symm
    rw [← same] at ends ⊢
    exact .last fits ends
  | directory fits stands goes _ ih => exact .directory fits (more _ _ stands) goes (ih some)
  | link fits stands goes _ ih => exact .link fits (more _ _ stands) goes (ih some)

/-! ### Beyond the end of a walk -/

/-- On the way to a name, a `.` does not count. -/
theorem walk_filter (front : List String) (named : ∃ name ∈ rest, name ≠ ".") :
    walk tree follow links start (front ++ rest) =
      walk tree follow links start (front.filter (· ≠ ".") ++ rest) := by
  have longer : ∀ front : List String, front ++ rest ≠ [] := by
    rintro front empty
    obtain ⟨name, member, -⟩ := named
    rw [(List.append_eq_nil_iff.mp empty).2] at member
    cases member
  induction links, start, front using walk_induction with
  | nil => rfl
  | cons links start name front ih through =>
    rw [List.cons_append]
    by_cases here : name = "."
    · subst here
      rw [walk_here, List.filter_cons_of_neg (by simp)]
      exact ih start
    rw [List.filter_cons_of_pos (by simpa using here), List.cons_append]
    cases meets tree start name with
    | here => exact absurd rfl here
    | parent =>
      rw [walk_parent, walk_parent]
      exact ih start.dropLast
    | long here parent long => rw [walk_long here parent long, walk_long here parent long]
    | missing fits stands =>
      rw [walk_missing fits stands, walk_missing fits stands, if_neg (longer _),
        if_neg (longer _)]
    | directory fits stands =>
      rw [walk_directory fits stands, walk_directory fits stands, if_neg (longer _),
        if_neg (longer _)]
      exact ih (start ++ [name])
    | file content executable fits stands =>
      rw [walk_file fits stands, walk_file fits stands, if_neg (longer _), if_neg (longer _)]
    | link target fits stands =>
      have goes : ∀ front : List String, ¬ (front ++ rest = [] ∧ follow = false) :=
        fun front both => longer front both.1
      rw [walk_link fits stands, walk_link fits stands, if_neg (goes front), if_neg (goes _)]
      cases links with
      | zero => rfl
      | succ links =>
        -- Both walks go on from the link, and what they have to take there comes to the same names.
        rw [beyond, beyond, ← List.append_assoc, ← List.append_assoc, through links rfl,
          through links rfl _ (Disk.names target ++ front.filter (· ≠ "."))]
        simp

/-- Where a walk finds nothing, no longer walk leads anywhere. -/
theorem walk_past_missing {front : List String} (more : rest ≠ []) (follow : Bool)
    (h : walk tree false links start front = .ok ⟨place, none, true⟩) :
    walk tree follow links start (front ++ rest) = .error .notFound := by
  have longer : ∀ front : List String, front ++ rest ≠ [] :=
    fun front empty => more (List.append_eq_nil_iff.mp empty).2
  have walks := walks_of_ok h
  clear h
  generalize found : (⟨place, none, true⟩ : Spot) = spot at walks
  induction walks with
  | nil => cases found
  | here _ ih => rw [List.cons_append, walk_here, ih found]
  | parent _ ih => rw [List.cons_append, walk_parent, ih found]
  | last fits =>
    have stands := (congrArg Spot.node found).symm
    rw [List.cons_append, walk_missing fits stands, if_neg (longer [])]
  | directory fits stands _ _ ih =>
    rw [List.cons_append, walk_directory fits stands, if_neg (longer _), ih found]
  | link fits stands _ _ ih =>
    rw [List.cons_append, walk_link fits stands, if_neg fun both => longer _ both.1,
      ← List.append_assoc]
    exact ih found

/-- When a directory is made where a walk found nothing, a longer walk goes on from there. -/
theorem walk_past_made {front : List String} (more : rest ≠ []) (was : tree.lookup place = none)
    (now : ∀ other, made.lookup other = if other = place then some .directory
      else tree.lookup other) (follow : Bool)
    (h : walk tree false links start front = .ok ⟨place, none, true⟩) :
    ∃ left, walk made follow links start (front ++ rest) = walk made follow left place rest := by
  have longer : ∀ front : List String, front ++ rest ≠ [] :=
    fun front empty => more (List.append_eq_nil_iff.mp empty).2
  have same : ∀ {other node}, tree.lookup other = some node → made.lookup other = some node := by
    intro other node stands
    rw [now, if_neg ?_, stands]
    rintro rfl
    rw [was] at stands
    cases stands
  have walks := walks_of_ok h
  clear h
  generalize found : (⟨place, none, true⟩ : Spot) = spot at walks
  induction walks with
  | nil => cases found
  | here _ ih =>
    rw [List.cons_append, walk_here]
    exact ih found
  | parent _ ih =>
    rw [List.cons_append, walk_parent]
    exact ih found
  | @last links start name fits =>
    -- This is the place where the directory is made: the longer walk enters it.
    have there : place = start ++ [name] := congrArg Spot.place found
    have stands : made.lookup (start ++ [name]) = some .directory := by
      rw [now, if_pos there.symm]
    rw [List.cons_append, walk_directory fits stands, if_neg (longer []), there]
    exact ⟨links, rfl⟩
  | directory fits stands _ _ ih =>
    rw [List.cons_append, walk_directory fits (same stands), if_neg (longer _)]
    exact ih found
  | link fits stands _ _ ih =>
    rw [List.cons_append, walk_link fits (same stands), if_neg fun both => longer _ both.1,
      ← List.append_assoc]
    exact ih found

/-- Below a place with nothing below it, a walk finds nothing, unless it turns back. -/
theorem walk_barren (barren : ∀ below, below ≠ [] → tree.lookup (place ++ below) = none)
    (down : ".." ∉ names) (named : ∃ name ∈ names, name ≠ ".")
    (h : walk tree follow links place names = .ok spot) : spot.node = none := by
  have missing : ∀ name, tree.lookup (place ++ [name]) = none :=
    fun name => barren [name] (List.cons_ne_nil _ _)
  induction names with
  | nil =>
    obtain ⟨name, member, -⟩ := named
    cases member
  | cons name rest ih =>
    cases walks_of_ok h with
    | here onward =>
      refine ih (fun member => down (List.mem_cons_of_mem _ member)) ?_ onward.ok
      obtain ⟨other, member, proper⟩ := named
      exact ⟨other, (List.mem_cons.mp member).resolve_left proper, proper⟩
    | parent => exact absurd List.mem_cons_self down
    | last => exact missing name
    | directory _ stands => cases (missing name).symm.trans stands
    | link _ stands => cases (missing name).symm.trans stands

end StyleMonitor.Disk
