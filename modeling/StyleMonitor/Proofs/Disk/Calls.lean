import StyleMonitor.Disk.Calls
import StyleMonitor.Proofs.Disk.Walk

/-!
# What calls on the files do

A path leads to a place. A call on a path at which a file stands or nothing changes what stands at
that place, and at no other; so all paths go on leading where they led.
-/

namespace StyleMonitor.Disk

variable {disk other : Disk} {path source target : String} {place : Place} {named : Bool}
  {content : Bytes}

/-! ### Where paths lead -/

/-- All that stands somewhere stands in a directory, and so does the current directory. -/
structure Sound (disk : Disk) : Prop where
  grounded : disk.tree.Grounded
  home : disk.tree.lookup disk.current = some .directory

/-- A text that the system takes as a path. -/
structure Usable (path : String) : Prop where
  noNul : '\x00' ∉ path.toList
  named : path ≠ ""
  short : ¬ pathLimit ≤ Text.size path

/-- The directory that a path starts from. -/
def origin (disk : Disk) (path : String) : Place :=
  if Path.isAbsolute path then [] else disk.current

/-- The place that a path leads to without following a link at its end, and whether the path ends
in a name. -/
def leads (disk : Disk) (path : String) : Option (Place × Bool) :=
  (disk.spot false path).toOption.map fun found => (found.place, found.named)

theorem Sound.origin (sound : disk.Sound) (path : String) :
    disk.tree.lookup (disk.origin path) = some .directory := by
  unfold Disk.origin
  split
  · exact Tree.lookup_root disk.tree
  · exact sound.home

theorem spot_of_usable (usable : Usable path) (follow : Bool) :
    disk.spot follow path =
      match walk disk.tree follow maxLinks (disk.origin path) (names path) with
      | .ok found => .ok found
      | .error cause => .error (.refused cause) := by
  rw [spot, if_neg usable.noNul, if_neg usable.named, if_neg usable.short]
  rfl

theorem spot_of_not_usable (unusable : ¬ Usable path) :
    ∃ failure, ∀ (disk : Disk) follow, disk.spot follow path = .error failure := by
  by_cases noNul : '\x00' ∈ path.toList
  · refine ⟨.nulInPath, fun disk follow => ?_⟩
    rw [spot, if_pos noNul]
  by_cases named : path = ""
  · refine ⟨.refused .notFound, fun disk follow => ?_⟩
    rw [spot, if_neg noNul, if_pos named]
  by_cases long : pathLimit ≤ Text.size path
  · refine ⟨.refused .nameTooLong, fun disk follow => ?_⟩
    rw [spot, if_neg noNul, if_neg named, if_pos long]
  · exact absurd ⟨noNul, named, long⟩ unusable

theorem spot_ok_iff {follow : Bool} {found : Spot} : disk.spot follow path = .ok found ↔
    Usable path ∧ walk disk.tree follow maxLinks (disk.origin path) (names path) = .ok found := by
  by_cases usable : Usable path
  · rw [spot_of_usable usable]
    constructor
    · intro h
      split at h
      · next walked =>
        cases h
        exact ⟨usable, walked⟩
      · cases h
    · rintro ⟨-, walked⟩
      rw [walked]
  · obtain ⟨failure, refused⟩ := spot_of_not_usable usable
    constructor
    · intro h
      rw [refused] at h
      cases h
    · exact fun both => absurd both.1 usable

theorem leads_eq_of_usable (usable : Usable path) : disk.leads path =
    reached (walk disk.tree false maxLinks (disk.origin path) (names path)) := by
  rw [leads, spot_of_usable usable]
  cases walk disk.tree false maxLinks (disk.origin path) (names path) <;> rfl

theorem leads_of_not_usable (unusable : ¬ Usable path) : disk.leads path = none := by
  obtain ⟨failure, refused⟩ := spot_of_not_usable unusable
  rw [leads, refused]
  rfl

theorem Sound.spot (sound : disk.Sound) {follow : Bool} {found : Spot}
    (h : disk.spot follow path = .ok found) : found.Sound disk.tree :=
  walk_sound sound.grounded (sound.origin path) (spot_ok_iff.mp h).2

theorem leads_of_spot {found : Spot} (h : disk.spot false path = .ok found) :
    disk.leads path = some (found.place, found.named) := by
  rw [leads, h]
  rfl

theorem spot_of_leads (sound : disk.Sound) (h : disk.leads path = some (place, named)) :
    disk.spot false path = .ok ⟨place, disk.tree.lookup place, named⟩ := by
  rw [leads] at h
  cases found : disk.spot false path with
  | error failure =>
    rw [found] at h
    cases h
  | ok spot =>
    rw [found] at h
    cases h
    rw [(sound.spot found).node]

/-- The place that a path leads to has the name that the path ends in. -/
theorem endsIn_of_leads (h : disk.leads path = some (place, true)) : EndsIn (names path) place := by
  rw [leads] at h
  cases found : disk.spot false path with
  | error failure =>
    rw [found] at h
    cases h
  | ok spot =>
    rw [found] at h
    cases spot
    cases h
    exact walk_endsIn (spot_ok_iff.mp found).2 rfl

/-- A file stands where a path leads, or nothing. -/
def Plain (disk : Disk) (path : String) : Prop :=
  ∀ place named, disk.leads path = some (place, named) → Node.IsLeaf (disk.tree.lookup place)

theorem plain_of_leads (leads : disk.leads path = some (place, named))
    (leaf : Node.IsLeaf (disk.tree.lookup place)) : disk.Plain path := by
  intro there ends same
  rw [leads] at same
  cases same
  exact leaf

theorem plain_of_leads_none (nowhere : disk.leads path = none) : disk.Plain path := by
  intro place ends leads
  rw [nowhere] at leads
  cases leads

theorem Plain.endsInName (plain : disk.Plain path) (sound : disk.Sound)
    (h : disk.leads path = some (place, named)) : named = true := by
  cases named with
  | true => rfl
  | false =>
    have end_ := sound.spot (spot_of_leads sound h)
    exact absurd (end_.unnamed rfl) (plain place false h).ne_directory

theorem Plain.spot (plain : disk.Plain path) (sound : disk.Sound) (follow : Bool) :
    disk.spot follow path = disk.spot false path := by
  cases follow with
  | false => rfl
  | true =>
    by_cases usable : Usable path
    · rw [spot_of_usable usable, spot_of_usable usable, walk_follow]
      intro found target walked
      have spot := spot_ok_iff.mpr ⟨usable, walked⟩
      rw [← (sound.spot spot).node]
      exact (plain _ _ (leads_of_spot spot)).ne_link target
    · obtain ⟨failure, refused⟩ := spot_of_not_usable usable
      rw [refused, refused]

/-! ### What can be read -/

/-- The content of the file that a path leads to. -/
def file? (disk : Disk) (path : String) : Option Bytes :=
  (disk.read path).toOption

/-- What has no status cannot be read. -/
theorem read_of_error {failure : Failure} (status : disk.status path = .error failure) :
    disk.read path = .error failure := by
  rw [read, status]
  rfl

/-- The content of a file where a path leads to a file or to nothing. -/
theorem Plain.read (plain : disk.Plain path) (sound : disk.Sound) :
    (∃ place content executable, disk.leads path = some (place, true) ∧
      disk.tree.lookup place = some (.file content executable) ∧ Path.endsInSlash path = false ∧
      disk.status path = .ok (.file content executable) ∧ disk.read path = .ok content) ∨
    ∃ failure, disk.status path = .error failure ∧ disk.read path = .error failure := by
  cases spot : disk.spot false path with
  | error failure =>
    have status : disk.status path = .error failure := by
      rw [status, plain.spot sound, spot]
      rfl
    exact Or.inr ⟨failure, status, read_of_error status⟩
  | ok found =>
    have leads := leads_of_spot spot
    have end_ := (sound.spot spot).node
    have named := plain.endsInName sound leads
    rcases plain _ _ leads with none | ⟨content, executable, file⟩
    · have status : disk.status path = .error (.refused .notFound) := by
        rw [status, plain.spot sound, spot]
        simp only [bind, Except.bind, ← end_, none]
        rfl
      exact Or.inr ⟨_, status, read_of_error status⟩
    · cases slash : Path.endsInSlash path with
      | true =>
        have status : disk.status path = .error (.refused .notADirectory) := by
          rw [status, plain.spot sound, spot]
          simp only [bind, Except.bind, ← end_, file, slash, if_true]
          rfl
        exact Or.inr ⟨_, status, read_of_error status⟩
      | false =>
        have status : disk.status path = .ok (.file content executable) := by
          rw [status, plain.spot sound, spot]
          simp only [bind, Except.bind, ← end_, file, slash]
          rfl
        refine Or.inl ⟨_, content, executable, named ▸ leads, file, rfl, status, ?_⟩
        rw [Disk.read, status]
        rfl

theorem file?_eq_some_iff (sound : disk.Sound) (plain : disk.Plain path) :
    disk.file? path = some content ↔ ∃ place executable, disk.leads path = some (place, true) ∧
      disk.tree.lookup place = some (.file content executable) ∧ Path.endsInSlash path = false := by
  rcases plain.read sound with ⟨place, own, executable, leads, file, slash, -, read⟩ |
    ⟨failure, status, read⟩
  · rw [file?, read]
    constructor
    · rintro ⟨⟩
      exact ⟨place, executable, leads, file, slash⟩
    · rintro ⟨place', executable', leads', file', -⟩
      rw [leads] at leads'
      cases leads'
      rw [file] at file'
      cases file'
      rfl
  · rw [file?, read]
    constructor
    · nofun
    · rintro ⟨place, executable, leads, file, slash⟩
      rw [Disk.status, plain.spot sound, spot_of_leads sound leads] at status
      simp only [bind, Except.bind, file, slash] at status
      cases status

/-- Whether a path leads to anything: to a file. -/
theorem isThere_eq (sound : disk.Sound) (plain : disk.Plain path) :
    disk.isThere path = (disk.file? path).isSome := by
  rcases plain.read sound with ⟨_, _, _, -, -, -, status, read⟩ | ⟨failure, status, read⟩
  · rw [isThere, file?, status, read]
    rfl
  · rw [isThere, file?, status, read]
    rfl

/-! ### What a call does -/

/-- What succeeds in two parts succeeds in the first, and in the second with the answer of that. -/
theorem exists_of_bind {α β : Type} {first : Except Failure α} {next : α → Except Failure β}
    {result : β} (h : (first >>= next) = .ok result) :
    ∃ answer, first = .ok answer ∧ next answer = .ok result := by
  cases first with
  | error failure => cases h
  | ok answer => exact ⟨answer, rfl, h⟩

theorem exists_of_makeDirectory (h : disk.makeDirectory path = .ok other) :
    ∃ place, disk.spot false path = .ok ⟨place, none, true⟩ ∧
      other = { disk with tree := disk.tree.insert place .directory } := by
  unfold makeDirectory at h
  obtain ⟨⟨place, node, named⟩, spot, h⟩ := exists_of_bind h
  dsimp only at h
  split at h
  · next free =>
    obtain ⟨rfl, rfl⟩ := free
    cases h
    exact ⟨place, spot, rfl⟩
  · cases h

theorem exists_of_create (h : disk.create path = .ok other) :
    ∃ place, disk.spot false path = .ok ⟨place, none, true⟩ ∧ Path.endsInSlash path = false ∧
      other = { disk with tree := disk.tree.insert place (.file [] false) } := by
  unfold create at h
  obtain ⟨⟨place, node, named⟩, spot, h⟩ := exists_of_bind h
  dsimp only at h
  split at h
  · cases h
  next slash =>
  split at h
  · next free =>
    obtain ⟨rfl, rfl⟩ := free
    cases h
    exact ⟨place, spot, by simpa using slash, rfl⟩
  · cases h

theorem exists_of_remove (h : disk.remove path = .ok other) :
    ∃ place node named, disk.spot false path = .ok ⟨place, some node, named⟩ ∧
      node ≠ .directory ∧ Path.endsInSlash path = false ∧
      other = { disk with tree := disk.tree.erase place } := by
  unfold remove at h
  obtain ⟨⟨place, node, named⟩, spot, h⟩ := exists_of_bind h
  dsimp only at h
  split at h
  · cases h
  · cases h
  · next node apart =>
    split at h
    · cases h
    next slash =>
    cases h
    exact ⟨place, node, named, spot, apart, by simpa using slash, rfl⟩

theorem exists_of_write (h : disk.write path content = .ok other) :
    ∃ place node executable, disk.spot true path = .ok ⟨place, node, true⟩ ∧
      Path.endsInSlash path = false ∧ node ≠ some .directory ∧
      other = { disk with tree := disk.tree.insert place (.file content executable) } := by
  unfold write at h
  obtain ⟨⟨place, node, named⟩, spot, h⟩ := exists_of_bind h
  dsimp only at h
  split at h
  · cases h
  next proper =>
  obtain ⟨rfl, slash⟩ : named = true ∧ Path.endsInSlash path = false := by simpa using proper
  split at h
  · cases h
  · next executable =>
    cases h
    exact ⟨place, _, executable, spot, slash, nofun, rfl⟩
  · next other _ =>
    cases h
    exact ⟨place, node, false, spot, slash, other, rfl⟩

/-- A rename moves what its source names to where its target leads, or leaves it there. -/
theorem rename_ok_iff : disk.rename source target = .ok other ↔
    ∃ old new node there, disk.spot false source = .ok ⟨old, some node, true⟩ ∧
      disk.spot false target = .ok ⟨new, there, true⟩ ∧
      (node ≠ .directory →
        Path.endsInSlash source = false ∧ Path.endsInSlash target = false) ∧
      (old = new ∧ other = disk ∨
        (node = .directory → ¬ old <+: new) ∧ ¬ new <+: old ∧
        renameObstacle disk.tree new node there = none ∧
        other = { disk with tree := (disk.tree.erase new).move old new }) := by
  constructor
  · intro h
    unfold rename at h
    obtain ⟨⟨old, was, ends⟩, from_source, onward⟩ := exists_of_bind h
    obtain ⟨⟨new, there, ends'⟩, to_target, moved⟩ := exists_of_bind onward
    clear h onward
    dsimp only at moved
    split at moved
    · cases moved
    next named =>
    obtain ⟨rfl, rfl⟩ : ends = true ∧ ends' = true := by simpa using named
    split at moved
    · cases moved
    next node =>
    split at moved
    · cases moved
    next slash =>
    refine ⟨old, new, node, there, from_source, to_target, fun other => ?_, ?_⟩
    · simpa using fun some => slash ⟨other, some⟩
    split at moved
    · cases moved
    next inside =>
    split at moved
    · cases moved
    next outside =>
    split at moved
    · next same =>
      cases moved
      exact Or.inl ⟨same, rfl⟩
    next differ =>
    split at moved
    · cases moved
    next free =>
    cases moved
    refine Or.inr ⟨?_, ?_, free, rfl⟩
    · intro directory below
      exact inside ⟨directory, differ, List.isPrefixOf_iff_prefix.mpr below⟩
    · intro above
      exact outside ⟨differ, List.isPrefixOf_iff_prefix.mpr above⟩
  · rintro ⟨old, new, node, there, from_source, to_target, slash, moved⟩
    have no_slash : ¬ (node ≠ .directory ∧
        (Path.endsInSlash source = true ∨ Path.endsInSlash target = true)) := by
      rintro ⟨file, ends⟩
      obtain ⟨one, two⟩ := slash file
      simp [one, two] at ends
    unfold rename
    rw [from_source, to_target]
    simp only [bind, Except.bind, not_true_eq_false, or_self, if_false, if_neg no_slash]
    rcases moved with ⟨rfl, rfl⟩ | ⟨inside, outside, free, rfl⟩
    · simp
    · have differ : old ≠ new := fun same => outside (same ▸ List.prefix_rfl)
      have deep : ¬ (node = .directory ∧ old ≠ new ∧ old.isPrefixOf new = true) :=
        fun all => inside all.1 (List.isPrefixOf_iff_prefix.mp all.2.2)
      have high : ¬ (old ≠ new ∧ new.isPrefixOf old = true) :=
        fun both => outside (List.isPrefixOf_iff_prefix.mp both.2)
      rw [if_neg deep, if_neg high, if_neg differ, free]

/-! ### Changes -/

/-- A disk with another node at one place. -/
structure Puts (disk other : Disk) (place : Place) (node : Option Node) : Prop where
  current : other.current = disk.current
  lookup : ∀ elsewhere, other.tree.lookup elsewhere =
    if elsewhere = place then node else disk.tree.lookup elsewhere

theorem Sound.of_puts {node : Option Node} (sound : disk.Sound) (puts : Puts disk other place node)
    (leaf : Node.IsLeaf (disk.tree.lookup place))
    (inside : node ≠ none → ∀ parent name, place = parent ++ [name] →
      disk.tree.lookup parent = some .directory) : other.Sound where
  grounded := sound.grounded.of_lookup leaf inside puts.lookup
  home := by
    rw [puts.current, puts.lookup, if_neg ?_, sound.home]
    rintro rfl
    exact leaf.ne_directory sound.home

/-- A path that ends in a name does not lead to the root. -/
theorem Sound.ne_nil (sound : disk.Sound) {follow : Bool} {node : Option Node}
    (h : disk.spot follow path = .ok ⟨place, node, true⟩) : place ≠ [] := by
  obtain ⟨above, name, split, -⟩ := (sound.spot h).parent rfl
  simp only at split
  simp [split]

theorem makeDirectory_puts (sound : disk.Sound) (h : disk.makeDirectory path = .ok other) :
    ∃ place, disk.leads path = some (place, true) ∧ disk.tree.lookup place = none ∧
      Puts disk other place (some .directory) := by
  obtain ⟨place, spot, rfl⟩ := exists_of_makeDirectory h
  exact ⟨place, leads_of_spot spot, (sound.spot spot).node, rfl,
    Tree.lookup_insert _ (sound.ne_nil spot) _⟩

theorem create_puts (sound : disk.Sound) (h : disk.create path = .ok other) :
    ∃ place, disk.leads path = some (place, true) ∧ disk.tree.lookup place = none ∧
      Path.endsInSlash path = false ∧ Puts disk other place (some (.file [] false)) := by
  obtain ⟨place, spot, slash, rfl⟩ := exists_of_create h
  exact ⟨place, leads_of_spot spot, (sound.spot spot).node, slash, rfl,
    Tree.lookup_insert _ (sound.ne_nil spot) _⟩

theorem remove_puts (sound : disk.Sound) (h : disk.remove path = .ok other) :
    ∃ place, disk.leads path = some (place, true) ∧ Puts disk other place none := by
  obtain ⟨place, node, named, spot, apart, -, rfl⟩ := exists_of_remove h
  have name : named = true := by
    by_contra unnamed
    exact apart (Option.some.inj ((sound.spot spot).unnamed (by simpa using unnamed)))
  subst name
  exact ⟨place, leads_of_spot spot, rfl, Tree.lookup_erase _ (sound.ne_nil spot)⟩

theorem write_puts (sound : disk.Sound) (plain : disk.Plain path)
    (h : disk.write path content = .ok other) :
    ∃ place executable, disk.leads path = some (place, true) ∧ Path.endsInSlash path = false ∧
      Puts disk other place (some (.file content executable)) := by
  obtain ⟨place, node, executable, spot, slash, -, rfl⟩ := exists_of_write h
  rw [plain.spot sound] at spot
  exact ⟨place, executable, leads_of_spot spot, slash, rfl,
    Tree.lookup_insert _ (sound.ne_nil spot) _⟩

theorem rename_eq (sound : disk.Sound) (plain : disk.Plain target) {old new : Place}
    {executable : Bool} (from_source : disk.leads source = some (old, true))
    (to_target : disk.leads target = some (new, true))
    (file : disk.tree.lookup old = some (.file content executable)) :
    disk.rename source target =
      if Path.endsInSlash source ∨ Path.endsInSlash target then .error (.refused .notADirectory)
      else if old = new then .ok disk
      else .ok { disk with tree := (disk.tree.erase new).move old new } := by
  have leaf := plain _ _ to_target
  -- Nothing stands below a file, so the old place cannot be below the new one.
  have apart : ¬ (old ≠ new ∧ new.isPrefixOf old = true) := by
    rintro ⟨apart, starts⟩
    obtain ⟨rest, split⟩ := List.isPrefixOf_iff_prefix.mp starts
    have below : rest ≠ [] := by
      rintro rfl
      exact apart (by simpa using split.symm)
    have missing := sound.grounded.barren leaf.ne_directory below
    rw [split, file] at missing
    cases missing
  have obstacle : renameObstacle disk.tree new (.file content executable)
      (disk.tree.lookup new) = none := by
    rcases leaf with stands | ⟨_, _, stands⟩
    · rw [stands]
      rfl
    · rw [stands]
      rfl
  unfold rename
  rw [spot_of_leads sound from_source, spot_of_leads sound to_target]
  simp only [bind, Except.bind, file, obstacle, if_neg apart]
  simp [refuse]

/-- A file that is renamed takes the place of what stood at the target. -/
structure Moves (disk other : Disk) (source target : String) (old new : Place)
    (content : Bytes) : Prop where
  from_source : disk.leads source = some (old, true)
  to_target : disk.leads target = some (new, true)
  no_slash : Path.endsInSlash source = false ∧ Path.endsInSlash target = false
  current : other.current = disk.current
  lookup : ∃ executable, disk.tree.lookup old = some (.file content executable) ∧
    ∀ elsewhere, other.tree.lookup elsewhere =
      if elsewhere = new then some (.file content executable)
      else if elsewhere = old then none else disk.tree.lookup elsewhere

theorem rename_moves (sound : disk.Sound) (plainSource : disk.Plain source)
    (plainTarget : disk.Plain target) (h : disk.rename source target = .ok other) :
    ∃ old new content, Moves disk other source target old new content := by
  obtain ⟨old, new, node, there, from_source, to_target, slash, moved⟩ := rename_ok_iff.mp h
  have leads := leads_of_spot from_source
  have leads' := leads_of_spot to_target
  have leaf := plainSource old true leads
  have stands : disk.tree.lookup old = some node := (sound.spot from_source).node
  obtain ⟨content, executable, rfl⟩ : ∃ content executable, node = .file content executable := by
    rcases leaf with none | ⟨content, executable, file⟩
    · cases none.symm.trans stands
    · exact ⟨content, executable, Option.some.inj (stands.symm.trans file)⟩
  refine ⟨old, new, content, leads, leads', slash nofun, ?_, executable, stands, ?_⟩
  · rcases moved with ⟨-, rfl⟩ | ⟨-, -, -, rfl⟩
    · rfl
    · rfl
  · intro elsewhere
    rcases moved with ⟨rfl, rfl⟩ | ⟨-, outside, -, rfl⟩
    · split
      · next here => rw [here, stands]
      · rfl
    · have apart : old ≠ new := fun same => outside (same ▸ List.prefix_rfl)
      rw [Tree.lookup_erase_move sound.grounded leaf (plainTarget new true leads').ne_directory apart,
        stands]

/-! ### Disks that are alike -/

/-- The disks differ only in files. -/
structure Alike (disk other : Disk) : Prop where
  current : other.current = disk.current
  tree : disk.tree.Alike other.tree

theorem Alike.leads (alike : disk.Alike other) (path : String) :
    other.leads path = disk.leads path := by
  by_cases usable : Usable path
  · have same : other.origin path = disk.origin path := by
      rw [origin, origin, alike.current]
    rw [leads_eq_of_usable usable, leads_eq_of_usable usable, same, walk_alike alike.tree]
  · rw [leads_of_not_usable usable, leads_of_not_usable usable]

theorem Alike.plain (alike : disk.Alike other) (plain : disk.Plain path) : other.Plain path := by
  intro place named leads
  rw [alike.leads] at leads
  exact alike.tree.leaf (plain place named leads)

/-- A place that a path names stands in a directory. -/
theorem Sound.parent (sound : disk.Sound) (leads : disk.leads path = some (place, true))
    (parent : Place) (name : String) (split : place = parent ++ [name]) :
    disk.tree.lookup parent = some .directory := by
  obtain ⟨above, last, same, stands⟩ := (sound.spot (spot_of_leads sound leads)).parent rfl
  simp only at same
  rw [same] at split
  rw [(List.append_inj' split rfl).1] at stands
  exact stands

theorem Moves.alike {old new : Place} (moves : Moves disk other source target old new content)
    (plain : disk.Plain target) : disk.Alike other := by
  obtain ⟨executable, file, lookup⟩ := moves.lookup
  refine ⟨moves.current, fun place => ?_⟩
  rw [lookup]
  split
  · next here =>
    subst here
    exact Or.inr ⟨plain _ _ moves.to_target, Node.isLeaf_file content executable⟩
  split
  · next gone =>
    subst gone
    rw [file]
    exact Or.inr ⟨Node.isLeaf_file content executable, Node.isLeaf_none⟩
  · exact Or.inl rfl

theorem Moves.sound {old new : Place} (moves : Moves disk other source target old new content)
    (sound : disk.Sound) (plain : disk.Plain target) : other.Sound := by
  obtain ⟨executable, file, lookup⟩ := moves.lookup
  have leaf := plain _ _ moves.to_target
  have named : new ≠ [] := by
    rintro rfl
    exact leaf.ne_directory (Tree.lookup_root disk.tree)
  -- First the file stands at both places, then it is gone from the old one.
  have both := Tree.lookup_insert disk.tree named (.file content executable)
  have grounded : (disk.tree.insert new (.file content executable)).Grounded :=
    sound.grounded.of_lookup leaf (fun _ => sound.parent moves.to_target) both
  refine ⟨?_, ?_⟩
  · by_cases same : old = new
    · intro place name stands
      have alike : ∀ elsewhere, other.tree.lookup elsewhere =
          (disk.tree.insert new (.file content executable)).lookup elsewhere := by
        intro elsewhere
        rw [lookup, both, same]
        split <;> rfl
      rw [alike] at stands ⊢
      exact grounded place name stands
    · have gone : ∀ elsewhere, other.tree.lookup elsewhere = if elsewhere = old then none
          else (disk.tree.insert new (.file content executable)).lookup elsewhere := by
        intro elsewhere
        rw [lookup, both]
        by_cases gone : elsewhere = old
        · subst gone
          simp [same]
        · simp [gone]
      refine grounded.of_lookup ?_ (fun some => absurd rfl some) gone
      rw [both, if_neg same, file]
      exact Node.isLeaf_file content executable
  · exact moves.current ▸ (moves.alike plain).tree.directory sound.home

theorem Puts.alike {node : Option Node} (puts : Puts disk other place node)
    (leaf : Node.IsLeaf (disk.tree.lookup place)) (new : Node.IsLeaf node) : disk.Alike other :=
  ⟨puts.current, Tree.alike_of_lookup leaf new puts.lookup⟩

/-! ### What calls do to what can be read -/

/-- A path reads as before where it leads to the same place and the same stands there. -/
theorem file?_congr (sound : disk.Sound) (plain : disk.Plain path) (sound' : other.Sound)
    (plain' : other.Plain path) (leads : other.leads path = disk.leads path)
    (same : ∀ place named, disk.leads path = some (place, named) →
      other.tree.lookup place = disk.tree.lookup place) : other.file? path = disk.file? path := by
  ext content
  rw [file?_eq_some_iff sound' plain', file?_eq_some_iff sound plain, leads]
  constructor
  · rintro ⟨place, executable, leads, file, slash⟩
    exact ⟨place, executable, leads, same place true leads ▸ file, slash⟩
  · rintro ⟨place, executable, leads, file, slash⟩
    exact ⟨place, executable, leads, (same place true leads).trans file, slash⟩

/-- The paths lead to different places. -/
def Apart (disk : Disk) (source target : String) : Prop :=
  ∀ old new, disk.leads source = some (old, true) → disk.leads target = some (new, true) →
    old ≠ new

theorem Apart.symm (apart : disk.Apart source target) : disk.Apart target source :=
  fun old new leads leads' => (apart new old leads' leads).symm

theorem Apart.alike (apart : disk.Apart source target) (alike : disk.Alike other) :
    other.Apart source target := by
  intro old new leads leads'
  rw [alike.leads] at leads leads'
  exact apart old new leads leads'

/-- A disk on which only files have changed, and what it holds at a path now. -/
structure Sets (disk other : Disk) (path : String) (content : Option Bytes) : Prop where
  sound : other.Sound
  alike : disk.Alike other
  file : other.file? path = content
  others : ∀ elsewhere, disk.Plain elsewhere → disk.Apart path elsewhere →
    other.file? elsewhere = disk.file? elsewhere

theorem Puts.sets {node : Option Node} (puts : Puts disk other place node) (sound : disk.Sound)
    (plain : disk.Plain path) (leads : disk.leads path = some (place, true))
    (new : Node.IsLeaf node) {content : Option Bytes} (file : other.file? path = content) :
    Sets disk other path content := by
  have leaf := plain _ _ leads
  have alike := puts.alike leaf new
  have sound' := sound.of_puts puts leaf fun _ => sound.parent leads
  refine ⟨sound', alike, file, ?_⟩
  intro elsewhere plain' apart
  apply file?_congr sound plain' sound' (alike.plain plain') (alike.leads elsewhere)
  intro there named leads'
  rw [puts.lookup, if_neg]
  rw [plain'.endsInName sound leads'] at leads'
  exact (apart place there leads leads').symm

theorem Puts.file? {node : Option Node} (puts : Puts disk other place node) (sound : disk.Sound)
    (plain : disk.Plain path) (leads : disk.leads path = some (place, true))
    (new : Node.IsLeaf node) : other.file? path = some content ↔
      (∃ executable, node = some (.file content executable)) ∧ Path.endsInSlash path = false := by
  have leaf := plain _ _ leads
  have alike := puts.alike leaf new
  rw [file?_eq_some_iff (sound.of_puts puts leaf fun _ => sound.parent leads) (alike.plain plain),
    alike.leads, leads]
  constructor
  · rintro ⟨there, executable, same, file, slash⟩
    cases same
    rw [puts.lookup, if_pos rfl] at file
    exact ⟨⟨executable, file⟩, slash⟩
  · rintro ⟨⟨executable, file⟩, slash⟩
    exact ⟨place, executable, rfl, by rw [puts.lookup, if_pos rfl, file], slash⟩

theorem remove_sets (sound : disk.Sound) (plain : disk.Plain path)
    (h : disk.remove path = .ok other) : Sets disk other path none := by
  obtain ⟨place, leads, puts⟩ := remove_puts sound h
  refine puts.sets sound plain leads Node.isLeaf_none ?_
  rw [Option.eq_none_iff_forall_ne_some]
  intro content file
  obtain ⟨⟨executable, stands⟩, -⟩ := (puts.file? sound plain leads Node.isLeaf_none).mp file
  cases stands

theorem write_sets (sound : disk.Sound) (plain : disk.Plain path)
    (h : disk.write path content = .ok other) : Sets disk other path (some content) := by
  obtain ⟨place, executable, leads, slash, puts⟩ := write_puts sound plain h
  have new := Node.isLeaf_file content executable
  apply puts.sets sound plain leads new
  exact (puts.file? sound plain leads new).mpr ⟨⟨executable, rfl⟩, slash⟩

theorem write_of_file? {old : Bytes} (sound : disk.Sound) (plain : disk.Plain path)
    (file : disk.file? path = some old) (content : Bytes) :
    ∃ other, disk.write path content = .ok other := by
  obtain ⟨place, executable, leads, stands, slash⟩ := (file?_eq_some_iff sound plain).mp file
  refine ⟨{ disk with tree := disk.tree.insert place (.file content executable) }, ?_⟩
  rw [write, plain.spot sound, spot_of_leads sound leads, stands]
  simp [bind, Except.bind, slash]

/-- A file that is created was not there before, nor anything else. -/
theorem create_sets (sound : disk.Sound) (h : disk.create path = .ok other) :
    disk.Plain path ∧ disk.file? path = none ∧ Sets disk other path (some []) := by
  obtain ⟨place, leads, missing, slash, puts⟩ := create_puts sound h
  have plain := plain_of_leads leads (Or.inl missing)
  have new := Node.isLeaf_file [] false
  refine ⟨plain, ?_, puts.sets sound plain leads new ?_⟩
  · rw [Option.eq_none_iff_forall_ne_some]
    intro content file
    obtain ⟨there, executable, same, stands, -⟩ := (file?_eq_some_iff sound plain).mp file
    rw [leads] at same
    cases same
    rw [missing] at stands
    cases stands
  · exact (puts.file? sound plain leads new).mpr ⟨⟨false, rfl⟩, slash⟩

/-- A file can stand at a path. -/
structure Clear (disk : Disk) (path : String) : Prop where
  leads : ∃ place, disk.leads path = some (place, true)
  no_slash : Path.endsInSlash path = false

theorem Clear.alike (clear : disk.Clear path) (alike : disk.Alike other) : other.Clear path := by
  obtain ⟨⟨place, leads⟩, slash⟩ := clear
  exact ⟨⟨place, (alike.leads path).trans leads⟩, slash⟩

theorem clear_of_file? (sound : disk.Sound) (plain : disk.Plain path)
    (file : disk.file? path = some content) : disk.Clear path := by
  obtain ⟨place, executable, leads, -, slash⟩ := (file?_eq_some_iff sound plain).mp file
  exact ⟨⟨place, leads⟩, slash⟩

/-- Where a file can stand and none does, the system says so. -/
theorem Clear.read_missing (clear : disk.Clear path) (sound : disk.Sound) (plain : disk.Plain path)
    (missing : disk.file? path = none) : disk.read path = .error (.refused .notFound) := by
  obtain ⟨⟨place, leads⟩, slash⟩ := clear
  rcases plain _ _ leads with none | ⟨content, executable, file⟩
  · rw [Disk.read, status, plain.spot sound, spot_of_leads sound leads]
    simp only [bind, Except.bind, none]
    rfl
  · have read := (file?_eq_some_iff sound plain).mpr ⟨place, executable, leads, file, slash⟩
    rw [missing] at read
    cases read

/-- What is read after a file was renamed to another place. -/
structure Renames (disk other : Disk) (source target : String) (content : Bytes) : Prop where
  sound : other.Sound
  alike : disk.Alike other
  was : disk.file? source = some content
  clear : disk.Clear target
  gone : other.file? source = none
  file : other.file? target = some content
  others : ∀ elsewhere, disk.Plain elsewhere → disk.Apart source elsewhere →
    disk.Apart target elsewhere → other.file? elsewhere = disk.file? elsewhere

theorem rename_renames (sound : disk.Sound) (plainSource : disk.Plain source)
    (plainTarget : disk.Plain target) (apart : disk.Apart source target)
    (h : disk.rename source target = .ok other) :
    ∃ content, Renames disk other source target content := by
  obtain ⟨old, new, content, moves⟩ := rename_moves sound plainSource plainTarget h
  obtain ⟨executable, file, lookup⟩ := moves.lookup
  have alike := moves.alike plainTarget
  have sound' := moves.sound sound plainTarget
  have differ : old ≠ new := apart old new moves.from_source moves.to_target
  refine ⟨content, sound', alike, ?_, ⟨⟨new, moves.to_target⟩, moves.no_slash.2⟩, ?_, ?_, ?_⟩
  · rw [file?_eq_some_iff sound plainSource]
    exact ⟨old, executable, moves.from_source, file, moves.no_slash.1⟩
  · rw [Option.eq_none_iff_forall_ne_some]
    intro other read
    obtain ⟨there, _, leads, stands, -⟩ :=
      (file?_eq_some_iff sound' (alike.plain plainSource)).mp read
    rw [alike.leads, moves.from_source] at leads
    cases leads
    rw [lookup, if_neg differ, if_pos rfl] at stands
    cases stands
  · rw [file?_eq_some_iff sound' (alike.plain plainTarget)]
    refine ⟨new, executable, (alike.leads target).trans moves.to_target, ?_, moves.no_slash.2⟩
    rw [lookup, if_pos rfl]
  · intro elsewhere plain apartSource apartTarget
    apply file?_congr sound plain sound' (alike.plain plain) (alike.leads elsewhere)
    intro there named leads
    rw [plain.endsInName sound leads] at leads
    rw [lookup, if_neg (apartTarget new there moves.to_target leads).symm,
      if_neg (apartSource old there moves.from_source leads).symm]

/-- A file can be renamed to any path where a file can stand. -/
theorem rename_of_clear (sound : disk.Sound) (plainSource : disk.Plain source)
    (plainTarget : disk.Plain target) (file : disk.file? source = some content)
    (clear : disk.Clear target) : ∃ other, disk.rename source target = .ok other := by
  obtain ⟨old, executable, from_source, stands, slash⟩ :=
    (file?_eq_some_iff sound plainSource).mp file
  obtain ⟨new, to_target⟩ := clear.leads
  rw [rename_eq sound plainTarget from_source to_target stands,
    if_neg (by simp [slash, clear.no_slash])]
  split
  · exact ⟨_, rfl⟩
  · exact ⟨_, rfl⟩

end StyleMonitor.Disk
