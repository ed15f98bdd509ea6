import StyleMonitor.Disk.AtomicWrite
import StyleMonitor.Proofs.Disk.Calls
import StyleMonitor.Proofs.Disk.Names
import StyleMonitor.Proofs.Disk.Session

/-!
# Making the directories above a path

When a directory above a path is made, nothing was at the path, and nothing is there afterwards;
a path at which something is loses nothing. This needs that each directory which a `..` in the path
leads up from is there: else a directory that is made can open a way that was closed before.
-/

namespace StyleMonitor.Disk

variable {disk other : Disk} {path above : String} {place : Place}

/-- Every directory that a `..` in the path leads up from is there. -/
def Upward (disk : Disk) (path : String) : Prop :=
  ∀ before after, steps path = before ++ ".." :: after →
    ∃ place named, walk disk.tree true maxLinks (disk.origin path) before =
      .ok ⟨place, some .directory, named⟩

/-- A path in which no `..` stands leads up from nowhere. -/
theorem upward_of_not_mem (down : ".." ∉ steps path) (disk : Disk) : disk.Upward path := by
  intro before after split
  exact absurd (by simp [split]) down

/-- The path goes on from a path above it. -/
structure Beyond (above path : String) : Prop where
  absolute : Path.isAbsolute above = Path.isAbsolute path
  rest : ∃ rest, rest ≠ [] ∧ steps path = steps above ++ rest

/-- A walk to a path that ends in a name takes its steps. -/
theorem walk_steps {tree : Tree} {follow : Bool} {links : Nat} {start : Place}
    (ends : EndsIn (names path) place) :
    walk tree follow links start (names path) = walk tree follow links start (steps path) := by
  obtain ⟨name, last, -, fits⟩ := ends
  obtain ⟨front, split⟩ := List.getLast?_eq_some_iff.mp last
  rw [steps, split, walk_filter front ⟨name, List.mem_singleton_self name, fits.ne_here⟩,
    List.filter_append, List.filter_cons_of_pos (by simpa using fits.ne_here), List.filter_nil]

theorem Upward.of_grows (upward : disk.Upward path) (current : other.current = disk.current)
    (more : ∀ place node, disk.tree.lookup place = some node →
      other.tree.lookup place = some node) : other.Upward path := by
  intro before after split
  obtain ⟨place, named, walked⟩ := upward before after split
  have same : other.origin path = disk.origin path := by rw [origin, origin, current]
  refine ⟨place, named, ?_⟩
  rw [same]
  exact ((walks_of_ok walked).grows more (Option.some_ne_none _)).ok

/-- A walk to a path goes on from a path above it. -/
theorem Beyond.walk (beyond : Beyond above path) : ∃ tail, (∃ name ∈ tail, name ≠ ".") ∧
    steps path = steps above ++ tail.filter (· ≠ ".") ∧
    ∀ tree follow links start, walk tree follow links start (names path) =
      Disk.walk tree follow links start (steps above ++ tail) := by
  obtain ⟨rest, some, split⟩ := beyond.rest
  obtain ⟨front, tail, cut, front_eq, rfl⟩ := List.filter_eq_append_iff.mp split
  obtain ⟨name, member⟩ := List.exists_mem_of_ne_nil _ some
  have named : ∃ name ∈ tail, name ≠ "." :=
    ⟨name, List.mem_of_mem_filter member, by simpa using (List.mem_filter.mp member).2⟩
  refine ⟨tail, named, split, ?_⟩
  intro tree follow links start
  rw [cut, walk_filter front named, front_eq]

/-- No `..` follows on what is missing, as it would lead up from a directory that is not there. -/
theorem Upward.not_mem {rest : List String} (upward : disk.Upward path)
    (split : steps path = steps above ++ rest)
    (walked : walk disk.tree false maxLinks (disk.origin path) (steps above) =
      .ok ⟨place, none, true⟩) : ".." ∉ rest := by
  intro member
  obtain ⟨one, two, parts⟩ := List.append_of_mem member
  obtain ⟨there, ends, found⟩ := upward (steps above ++ one) two (by simp [split, parts])
  by_cases none : one = []
  · rw [none, List.append_nil, walk_follow, walked] at found
    · cases found
    · intro spot target h
      rw [walked] at h
      cases h
      simp
  · rw [walk_past_missing none true walked] at found
    cases found

/-- What is known of a path when a directory above it was made. -/
theorem makeDirectory_beyond (sound : disk.Sound) (upward : disk.Upward path)
    (beyond : Beyond above path) (h : disk.makeDirectory above = .ok other) :
    other.Sound ∧ other.Upward path ∧ disk.leads path = none ∧
      ∀ place named, other.leads path = some (place, named) →
        other.tree.lookup place = none := by
  obtain ⟨made, leads, missing, puts⟩ := makeDirectory_puts sound h
  have sound' : other.Sound :=
    sound.of_puts puts (Or.inl missing) fun _ => sound.parent leads
  have more : ∀ place node, disk.tree.lookup place = some node →
      other.tree.lookup place = some node := by
    intro place node stands
    rw [puts.lookup, if_neg, stands]
    rintro rfl
    rw [missing] at stands
    cases stands
  refine ⟨sound', upward.of_grows puts.current more, ?_⟩
  have start : disk.origin above = disk.origin path := by rw [origin, origin, beyond.absolute]
  have start' : other.origin path = disk.origin path := by rw [origin, origin, puts.current]
  have walked : walk disk.tree false maxLinks (disk.origin path) (steps above) =
      .ok ⟨made, none, true⟩ := by
    rw [← walk_steps (endsIn_of_leads leads), ← start]
    have spot := spot_of_leads sound leads
    rw [missing] at spot
    exact (spot_ok_iff.mp spot).2
  obtain ⟨tail, named, split, through⟩ := beyond.walk
  have down : ".." ∉ tail := by
    intro member
    apply upward.not_mem split walked
    exact List.mem_filter.mpr ⟨member, by decide⟩
  have goes : tail ≠ [] := by
    obtain ⟨name, member, -⟩ := named
    exact List.ne_nil_of_mem member
  by_cases usable : Usable path
  · constructor
    · rw [leads_eq_of_usable usable, through, walk_past_missing goes false walked]
      rfl
    · intro place ends found
      have spot := spot_of_leads sound' found
      have walked' := (spot_ok_iff.mp spot).2
      obtain ⟨on, same⟩ := walk_past_made goes missing puts.lookup false walked
      rw [start', through, same] at walked'
      have barren : ∀ below, below ≠ [] → other.tree.lookup (made ++ below) = none := by
        intro below some
        rw [puts.lookup, if_neg (by simpa using some)]
        apply sound.grounded.barren _ some
        rw [missing]
        simp
      have empty := walk_barren barren down named walked'
      exact empty
  · refine ⟨leads_of_not_usable usable, ?_⟩
    intro place ends found
    rw [leads_of_not_usable usable] at found
    cases found

/-! ### The paths above a path -/

theorem mem_parents {parts : List Component} (member : above ∈ Path.parents parts) :
    ∃ front back, back ≠ [] ∧ parts.reverse = front ++ back ∧ above = Path.ofComponents front := by
  induction parts with
  | nil => cases member
  | cons part rest ih =>
    rcases List.mem_cons.mp member with rfl | later
    · exact ⟨rest.reverse, [part], by simp, by simp, rfl⟩
    · obtain ⟨front, back, some, split, same⟩ := ih later
      exact ⟨front, back ++ [part], by simp, by simp [split], same⟩

/-- The paths above a path have the first of its components. -/
theorem components_of_ancestor (member : above ∈ Path.ancestors path) :
    Path.components above <+: Path.components path := by
  rcases List.mem_cons.mp member with rfl | higher
  · exact List.prefix_rfl
  · obtain ⟨front, back, -, split, rfl⟩ := mem_parents higher
    rw [List.reverse_reverse] at split
    have spelled := Path.components_spelled path
    rw [split] at spelled ⊢
    rw [Path.components_ofComponents spelled.of_append]
    exact List.prefix_append front back

/-- A path above the directory of a path, unless it leads nowhere, has the first of the path's
components. -/
theorem components_of_directoryOf (member : above ∈ Path.ancestors (Session.directoryOf path))
    (some : steps above ≠ []) : Path.components path ≠ [] ∧ Path.components above ≠ [] ∧
      Path.components above <+: (Path.components path).dropLast := by
  have starts := components_of_ancestor member
  have named : Path.components above ≠ [] := by
    intro none
    rw [steps_eq, none] at some
    exact some rfl
  have here : Session.directoryOf path ≠ "." := by
    intro dot
    rw [dot] at starts
    have few : Path.components above = [] ∨ Path.components above = [.here] := by
      simpa using List.prefix_cons_iff.mp (show _ <+: [Component.here] from starts)
    rw [steps_eq] at some
    rcases few with none | one
    · exact named none
    · rw [one] at some
      exact some rfl
  unfold Session.directoryOf at here starts
  cases parent : Path.parent? path with
  | none =>
    rw [parent] at here
    exact absurd rfl here
  | some directory =>
    rw [parent] at here starts
    simp only at here starts
    by_cases empty : directory = ""
    · rw [if_pos empty] at here
      exact absurd rfl here
    · obtain ⟨whole, same⟩ := Path.parent?_eq parent
      rw [if_neg empty, same, Path.components_dropLast] at starts
      exact ⟨whole, named, starts⟩

/-- A path beside a path goes on from each path above that leads somewhere. -/
theorem beyond_of_ancestor {beside : String} {part : Component}
    (member : above ∈ Path.ancestors (Session.directoryOf path)) (some : steps above ≠ [])
    (same : Path.components beside = (Path.components path).dropLast ++ [part]) :
    Beyond above beside := by
  obtain ⟨-, named, back, split⟩ := components_of_directoryOf member some
  rw [← split] at same
  have spelled := Path.components_spelled beside
  rw [same] at spelled
  have last : part ≠ .root ∧ part ≠ .here := by
    apply spelled.inner part
    rw [List.append_assoc, List.tail_append_of_ne_nil named]
    simp
  refine ⟨?_, (back ++ [part]).filterMap Component.step?, ?_, ?_⟩
  · rw [Path.isAbsolute_eq, Path.isAbsolute_eq, same, List.append_assoc,
      List.head?_append_of_ne_nil _ named]
  · rw [List.filterMap_append]
    cases part with
    | root => exact absurd rfl last.1
    | here => exact absurd rfl last.2
    | _ => simp [Component.step?]
  · rw [steps_eq, steps_eq, same, List.append_assoc, List.filterMap_append]

/-! ### Making them -/

/-- What is known of a path while directories above it are made. -/
structure Grown (disk other : Disk) (path : String) : Prop where
  upward : other.Upward path
  plain : other.Plain path
  file : other.file? path = disk.file? path
  leads : disk.leads path ≠ none → other.leads path = disk.leads path

theorem Grown.refl (upward : disk.Upward path) (plain : disk.Plain path) :
    Grown disk disk path :=
  ⟨upward, plain, rfl, fun _ => rfl⟩

theorem file?_eq_none (sound : disk.Sound) (plain : disk.Plain path)
    (h : ∀ place named, disk.leads path = some (place, named) →
      disk.tree.lookup place = none) : disk.file? path = none := by
  rw [Option.eq_none_iff_forall_ne_some]
  intro content file
  obtain ⟨place, executable, leads, stands, -⟩ := (file?_eq_some_iff sound plain).mp file
  rw [h place true leads] at stands
  cases stands

theorem Grown.makeDirectory {later : Disk} (grown : Grown disk other path) (sound : other.Sound)
    (beyond : Beyond above path) (h : other.makeDirectory above = .ok later) :
    later.Sound ∧ Grown disk later path := by
  obtain ⟨sound', upward, none, barren⟩ := makeDirectory_beyond sound grown.upward beyond h
  have plain : later.Plain path := fun place named leads => Or.inl (barren place named leads)
  refine ⟨sound', upward, plain, ?_, ?_⟩
  · rw [← grown.file, file?_eq_none sound' plain barren, file?_eq_none sound grown.plain]
    intro place named leads
    rw [none] at leads
    cases leads
  · intro some
    have same := grown.leads some
    rw [none] at same
    exact absurd same.symm some

/-- Only a directory that a path names can be made. -/
theorem steps_ne_nil_of_makeDirectory (h : disk.makeDirectory path = .ok other) :
    steps path ≠ [] := by
  intro none
  obtain ⟨place, spot, -⟩ := exists_of_makeDirectory h
  have walked := (spot_ok_iff.mp spot).2
  rw [walk_nowhere none] at walked
  cases walked

end StyleMonitor.Disk

namespace StyleMonitor.Session

variable {disk : Disk} {keeps : Disk → Prop} {paths : List String}

/-- What each directory keeps that is made, the making of several keeps. -/
theorem makeUpwards_ensures
    (each : ∀ path ∈ paths, ∀ disk other, keeps disk → disk.makeDirectory path = .ok other →
      keeps other) (start : keeps disk) :
    Ensures (makeUpwards paths) disk
      (fun missing disk => keeps disk ∧ ∀ path ∈ missing, path ∈ paths) keeps := by
  induction paths generalizing disk with
  | nil => exact .pure ⟨start, nofun⟩
  | cons path above ih =>
    have each' := fun path (member : path ∈ above) => each path (List.mem_cons_of_mem _ member)
    refine .bind (.attempt (.change ?_ fun failure => ?_))
    · intro after made
      exact .pure ⟨each path List.mem_cons_self disk after start made, nofun⟩
    · simp only
      split
      · refine .bind ((ih each' start).mono ?_ fun _ kept => kept)
        rintro missing later ⟨kept, inside⟩
        refine .pure ⟨kept, ?_⟩
        intro other member
        rcases List.mem_cons.mp member with rfl | more
        · exact List.mem_cons_self
        · exact List.mem_cons_of_mem _ (inside other more)
      split
      · refine .bind (.isDirectory fun answer => ?_)
        split
        · exact .pure ⟨start, nofun⟩
        · exact .throw start
      · exact .throw start

theorem makeDownwards_ensures
    (each : ∀ path ∈ paths, ∀ disk other, keeps disk → disk.makeDirectory path = .ok other →
      keeps other) (start : keeps disk) :
    Ensures (makeDownwards paths) disk (fun _ => keeps) keeps := by
  induction paths generalizing disk with
  | nil => exact .pure start
  | cons path below ih =>
    have each' := fun path (member : path ∈ below) => each path (List.mem_cons_of_mem _ member)
    refine .bind (.attempt (.change ?_ fun failure => ?_))
    · intro after made
      exact ih each' (each path List.mem_cons_self disk after start made)
    · simp only
      split
      · refine .bind (.isDirectory fun answer => ?_)
        split
        · exact ih each' start
        · exact .throw start
      · exact .throw start

theorem makeDirectories_ensures {path : String}
    (each : ∀ above ∈ Path.ancestors path, ∀ disk other, keeps disk →
      disk.makeDirectory above = .ok other → keeps other) (start : keeps disk) :
    Ensures (makeDirectories path) disk (fun _ => keeps) keeps := by
  have inside : ∀ above ∈ (Path.ancestors path).takeWhile fun above =>
      above ≠ "" ∧ Path.parent? above ≠ none, above ∈ Path.ancestors path :=
    fun above member => (List.takeWhile_sublist _).mem member
  refine .bind ((makeUpwards_ensures (fun above member => each above (inside above member))
    start).mono ?_ fun _ kept => kept)
  rintro missing later ⟨kept, listed⟩
  apply makeDownwards_ensures _ kept
  intro above member
  exact each above (inside above (listed above (List.mem_reverse.mp member)))

end StyleMonitor.Session
