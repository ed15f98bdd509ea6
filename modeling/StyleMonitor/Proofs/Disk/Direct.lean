import StyleMonitor.Proofs.Disk.Directories

/-!
# Paths that lead straight to their places

A path from the root directory that never turns back leads to the place of its steps, as long as no
symbolic link stands on the way. Whether a file can be read there hangs on what stands at that one
place.
-/

namespace StyleMonitor

/-! ### Trees without links on the way -/

namespace Tree

variable {tree first second : Tree} {place above : Place}

/-- No symbolic link stands on the way to a place, nor at it. -/
def Direct (tree : Tree) (place : Place) : Prop :=
  ∀ above, above <+: place → ∀ target, tree.lookup above ≠ some (.link target)

theorem Direct.of_prefix (direct : tree.Direct place) (starts : above <+: place) :
    tree.Direct above :=
  fun higher begins => direct higher (begins.trans starts)

/-- A tree that holds no links leads to every place directly. -/
theorem direct_of_mem (solid : ∀ entry ∈ tree.nodes, ∀ target, entry.2 ≠ .link target)
    (place : Place) : tree.Direct place := by
  intro above _ target stands
  rw [lookup] at stands
  split at stands
  · cases stands
  · obtain ⟨before, after, listed, -⟩ := List.lookup_eq_some_iff.mp stands
    refine solid (above, .link target) ?_ target rfl
    rw [listed]
    exact List.mem_append_right _ List.mem_cons_self

/-- A tree in which no new link stands leads as directly. -/
theorem Direct.of_links (direct : first.Direct place)
    (known : ∀ above target, second.lookup above = some (.link target) →
      first.lookup above = some (.link target)) : second.Direct place :=
  fun above starts target stands => direct above starts target (known above target stands)

theorem Direct.insert (direct : tree.Direct place) (other : Place) {node : Node}
    (solid : ∀ target, node ≠ .link target) : (tree.insert other node).Direct place := by
  refine direct.of_links fun above target stands => ?_
  by_cases root : above = []
  · subst root
    rw [lookup_root] at stands
    cases stands
  by_cases same : above = other
  · subst same
    rw [lookup_insert_self tree root] at stands
    exact absurd (Option.some.inj stands) (solid target)
  · rwa [lookup_insert_of_ne tree same] at stands

theorem lookup_erase_of_ne (tree : Tree) {other : Place} (apart : other ≠ place) :
    (tree.erase place).lookup other = tree.lookup other := by
  by_cases root : other = []
  · rw [root, lookup_root, lookup_root]
  · rw [lookup, lookup, if_neg root, if_neg root, erase, lookup_eraseNode_of_ne apart]

theorem Direct.erase (direct : tree.Direct place) (other : Place) :
    (tree.erase other).Direct place := by
  refine direct.of_links fun above target stands => ?_
  by_cases root : above = []
  · subst root
    rw [lookup_root] at stands
    cases stands
  by_cases same : above = other
  · subst same
    rw [lookup_erase tree root, if_pos rfl] at stands
    cases stands
  · rwa [lookup_erase_of_ne tree same] at stands

end Tree

namespace Disk

variable {disk other : Disk} {tree first second : Tree} {follow ahead : Bool} {links : Nat}
  {start : Place} {name path : String} {names rest : List String} {spot : Spot}

/-! ### Walks that follow no link -/

/-- A walk of names from a directory follows no link. -/
def Unled (tree : Tree) (follow : Bool) (start : Place) (names : List String) : Prop :=
  ∀ front rest, names = front ++ rest → rest ≠ [] ∨ follow = true →
    ∀ target, tree.lookup (start ++ front.filter (· ≠ ".")) ≠ some (.link target)

theorem unled_of_direct (direct : tree.Direct (start ++ names.filter (· ≠ "."))) :
    Unled tree follow start names := by
  rintro front rest rfl - target
  refine direct _ ?_ target
  rw [List.filter_append, ← List.append_assoc]
  exact List.prefix_append _ _

/-- A link at the end is not followed when it is asked for itself. -/
theorem unled_of_last (last : names.getLast? = some name)
    (direct : tree.Direct (start ++ names.dropLast.filter (· ≠ "."))) :
    Unled tree false start names := by
  obtain ⟨above, rfl⟩ := List.getLast?_eq_some_iff.mp last
  rw [List.dropLast_concat] at direct
  intro front rest split more target
  have more : rest ≠ [] := more.resolve_right nofun
  obtain ⟨inner, rfl⟩ : ∃ inner, above = front ++ inner := by
    obtain ⟨inner, final, rfl⟩ := (List.eq_nil_or_concat rest).resolve_left more
    rw [List.concat_eq_append, ← List.append_assoc] at split
    exact ⟨inner, (List.append_inj' split rfl).1⟩
  refine direct _ ?_ target
  rw [List.filter_append, ← List.append_assoc]
  exact List.prefix_append _ _

theorem Unled.here (unled : Unled tree follow start ("." :: rest)) :
    Unled tree follow start rest := by
  intro front tail split more
  have known := unled ("." :: front) tail (by rw [split, List.cons_append]) more
  rwa [List.filter_cons_of_neg (by simp)] at known

theorem Unled.onward (unled : Unled tree follow start (name :: rest)) (proper : name ≠ ".") :
    Unled tree follow (start ++ [name]) rest := by
  intro front tail split more
  have known := unled (name :: front) tail (by rw [split, List.cons_append]) more
  rwa [List.filter_cons_of_pos (by simpa using proper), ← List.singleton_append,
    ← List.append_assoc] at known

/-- A walk that follows no link and never turns back ends where its names lead. -/
theorem walk_place (down : ".." ∉ names) (unled : Unled tree follow start names)
    (h : walk tree follow links start names = .ok spot) :
    spot.place = start ++ names.filter (· ≠ ".") := by
  have walks := walks_of_ok h
  clear h
  induction walks with
  | nil => simp
  | here _ ih =>
    rw [List.filter_cons_of_neg (by simp)]
    exact ih (fun member => down (List.mem_cons_of_mem _ member)) unled.here
  | parent => exact absurd List.mem_cons_self down
  | last fits => rw [List.filter_cons_of_pos (by simpa using fits.ne_here), List.filter_nil]
  | directory fits _ _ _ ih =>
    rw [ih (fun member => down (List.mem_cons_of_mem _ member)) (unled.onward fits.ne_here),
      List.filter_cons_of_pos (by simpa using fits.ne_here)]
    simp
  | @link _ _ name target rest _ fits stands more =>
    have unlinked := unled [name] rest rfl more target
    rw [List.filter_cons_of_pos (by simpa using fits.ne_here), List.filter_nil] at unlinked
    exact absurd stands unlinked

/-- Walks without links on the way go alike where the same stands on the way. -/
theorem walk_agree (down : ".." ∉ names) (direct : first.Direct (start ++ names.filter (· ≠ ".")))
    (same : ∀ above, above <+: start ++ names.filter (· ≠ ".") →
      second.lookup above = first.lookup above) :
    walk second ahead links start names = walk first follow links start names := by
  induction names generalizing start with
  | nil => rw [walk_nil, walk_nil]
  | cons name rest ih =>
    have onward : ".." ∉ rest := fun member => down (List.mem_cons_of_mem _ member)
    by_cases here : name = "."
    · subst here
      rw [List.filter_cons_of_neg (by simp)] at direct same
      rw [walk_here, walk_here]
      exact ih onward direct same
    rw [List.filter_cons_of_pos (by simpa using here), ← List.singleton_append,
      ← List.append_assoc] at direct same
    have there := List.prefix_append (start ++ [name]) (rest.filter (· ≠ "."))
    have own := same _ there
    cases meets first start name with
    | here => exact absurd rfl here
    | parent => exact absurd List.mem_cons_self down
    | long here parent long => rw [walk_long here parent long, walk_long here parent long]
    | missing fits stands => rw [walk_missing fits stands, walk_missing fits (own.trans stands)]
    | directory fits stands =>
      rw [walk_directory fits stands, walk_directory fits (own.trans stands)]
      split
      · rfl
      · exact ih onward direct same
    | file content executable fits stands =>
      rw [walk_file fits stands, walk_file fits (own.trans stands)]
    | link target fits stands => exact absurd stands (direct _ there target)

/-! ### Downward paths -/

/-- A path from the root directory that never turns back. -/
structure Downward (path : String) : Prop where
  rooted : Path.isAbsolute path = true
  down : ".." ∉ steps path

theorem Downward.not_mem_names (downward : Downward path) : ".." ∉ Disk.names path :=
  fun member => downward.down (List.mem_filter.mpr ⟨member, by decide⟩)

theorem Downward.origin (downward : Downward path) (disk : Disk) : disk.origin path = [] :=
  if_pos downward.rooted

/-- The components of a downward path are the root and its steps. -/
theorem Downward.components (downward : Downward path) :
    Path.components path = .root :: (steps path).map .name := by
  have start := Path.isAbsolute_eq path
  rw [downward.rooted] at start
  obtain ⟨rest, parts⟩ : ∃ rest, Path.components path = .root :: rest := by
    cases found : Path.components path with
    | nil => simp [found] at start
    | cons first rest => exact ⟨rest, by simpa [found] using start.symm⟩
  have inner := (Path.components_spelled path).inner
  have down := downward.down
  rw [steps_eq, parts] at down ⊢
  rw [parts, List.tail_cons] at inner
  rw [List.filterMap_cons_none rfl] at down ⊢
  congr 1
  clear parts start
  induction rest with
  | nil => rfl
  | cons part rest ih =>
    have later := ih (fun part member => inner part (List.mem_cons_of_mem _ member))
    cases part with
    | root => exact absurd rfl (inner _ List.mem_cons_self).1
    | here => exact absurd rfl (inner _ List.mem_cons_self).2
    | parent => exact absurd List.mem_cons_self down
    | name text =>
      have stepped : (Component.name text :: rest).filterMap Component.step? =
          text :: rest.filterMap Component.step? := rfl
      rw [stepped] at down ⊢
      rw [List.map_cons, ← later fun member => down (List.mem_cons_of_mem _ member)]

/-- A downward path lies within another one when its steps go on from the steps of the other. -/
theorem Downward.isWithin_iff {base : String} (downward : Downward path) (above : Downward base) :
    Path.isWithin path base = true ↔ steps base <+: steps path := by
  rw [Path.isWithin, List.isPrefixOf_iff_prefix, downward.components, above.components,
    List.cons_prefix_cons]
  constructor
  · rintro ⟨-, starts⟩
    exact (List.prefix_map_iff_of_injective fun _ _ same => Component.name.inj same).mp starts
  · exact fun starts => ⟨rfl, starts.map _⟩

theorem steps_join {base tail : String} (relative : Path.isAbsolute tail = false) :
    steps (Path.join base tail) = steps base ++ steps tail := by
  rw [steps, names_join relative, List.filter_append]
  rfl

theorem Downward.join {base tail : String} (downward : Downward base)
    (relative : Path.isAbsolute tail = false) (down : ".." ∉ steps tail) :
    Downward (Path.join base tail) where
  rooted := by
    have named : base ≠ "" := by
      rintro rfl
      cases downward.rooted
    rw [Path.isAbsolute_eq, Path.components_join relative named, downward.components]
    rfl
  down := by
    rw [steps_join relative, List.mem_append]
    exact fun either => either.elim downward.down down

theorem Downward.of_components {other : String} (downward : Downward path)
    (same : Path.components other = Path.components path) : Downward other where
  rooted := by rw [Path.isAbsolute_eq, same, ← Path.isAbsolute_eq, downward.rooted]
  down := by
    rw [steps_eq, same, ← steps_eq]
    exact downward.down

/-- A downward path leads to the place of its steps. -/
theorem Downward.place (downward : Downward path)
    (unled : Unled disk.tree follow [] (Disk.names path)) (h : disk.spot follow path = .ok spot) :
    spot.place = steps path := by
  have walked := (spot_ok_iff.mp h).2
  rw [downward.origin] at walked
  have down := downward.not_mem_names
  exact walk_place down unled walked

/-- Where the same stands on the way, a downward path leads to the same, whether or not a link at
the end is to be followed. -/
theorem Downward.spot_agree (downward : Downward path) (direct : disk.tree.Direct (steps path))
    (same : ∀ above, above <+: steps path → other.tree.lookup above = disk.tree.lookup above)
    (ahead follow : Bool) : other.spot ahead path = disk.spot follow path := by
  by_cases usable : Usable path
  · have walks : walk other.tree ahead maxLinks [] (names path) =
        walk disk.tree follow maxLinks [] (names path) :=
      walk_agree downward.not_mem_names direct same
    rw [spot_of_usable usable, spot_of_usable usable, downward.origin, downward.origin, walks]
  · obtain ⟨failure, refused⟩ := spot_of_not_usable usable
    rw [refused, refused]

/-! ### What can be read -/

/-- Where a file can be read, its path leads to it. -/
theorem spot_of_file? {content : Bytes} (file : disk.file? path = some content) :
    ∃ spot executable, disk.spot true path = .ok spot ∧
      spot.node = some (.file content executable) ∧ Path.endsInSlash path = false := by
  have read : disk.read path = .ok content := by
    rw [file?] at file
    cases found : disk.read path with
    | error failure =>
      rw [found] at file
      cases file
    | ok own =>
      rw [found] at file
      rw [Option.some.inj file]
  rw [Disk.read] at read
  cases stands : disk.status path with
  | error failure =>
    rw [stands] at read
    cases read
  | ok node =>
    rw [stands] at read
    cases node with
    | directory => cases read
    | link target => cases read
    | file own executable =>
      cases read
      rw [status] at stands
      cases spot : disk.spot true path with
      | error failure =>
        rw [spot] at stands
        cases stands
      | ok found =>
        rw [spot] at stands
        simp only [bind, Except.bind] at stands
        split at stands
        · cases stands
        · cases stands
        · next node there =>
          split at stands
          · cases stands
          · next slash =>
            cases stands
            exact ⟨found, executable, rfl, there, by simpa using slash⟩

theorem Downward.lookup_of_file? {content : Bytes} (downward : Downward path) (sound : disk.Sound)
    (direct : disk.tree.Direct (steps path)) (file : disk.file? path = some content) :
    ∃ executable, disk.tree.lookup (steps path) = some (.file content executable) := by
  obtain ⟨spot, executable, leads, node, -⟩ := spot_of_file? file
  refine ⟨executable, ?_⟩
  rw [← downward.place (unled_of_direct direct) leads, (sound.spot leads).node, node]

/-- What can be read at a downward path hangs on what stands at its place. -/
theorem Downward.file?_agree (downward : Downward path) (sound : disk.Sound) (sound' : other.Sound)
    (direct : disk.tree.Direct (steps path)) (direct' : other.tree.Direct (steps path))
    (same : other.tree.lookup (steps path) = disk.tree.lookup (steps path)) :
    other.file? path = disk.file? path := by
  by_cases stands : ∃ content executable,
      disk.tree.lookup (steps path) = some (.file content executable)
  · obtain ⟨content, executable, stands⟩ := stands
    -- Above a file there are directories, so all on the way is the same.
    have agree : ∀ above, above <+: steps path →
        other.tree.lookup above = disk.tree.lookup above := by
      rintro above ⟨rest, split⟩
      by_cases ends : rest = []
      · rw [ends, List.append_nil] at split
        rw [split, same]
      · have there : disk.tree.lookup (above ++ rest) ≠ none := by
          rw [split, stands]
          nofun
        have there' : other.tree.lookup (above ++ rest) ≠ none := by
          rw [split, same, stands]
          nofun
        rw [sound.grounded.above ends there, sound'.grounded.above ends there']
    rw [file?, file?, Disk.read, Disk.read, status, status,
      downward.spot_agree direct agree true true]
  · have none : ∀ {one : Disk}, one.Sound → one.tree.Direct (steps path) →
        one.tree.lookup (steps path) = disk.tree.lookup (steps path) → one.file? path = none := by
      intro one sound direct same
      rw [Option.eq_none_iff_forall_ne_some]
      intro content file
      obtain ⟨executable, there⟩ := downward.lookup_of_file? sound direct file
      exact stands ⟨content, executable, same ▸ there⟩
    rw [none sound' direct' same, none sound direct rfl]

end Disk

end StyleMonitor
