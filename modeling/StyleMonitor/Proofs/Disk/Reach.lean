import StyleMonitor.Freshness
import StyleMonitor.Proofs.Disk.AtomicWrite
import StyleMonitor.Proofs.Disk.Direct

/-!
# How far calls reach

A call on a downward path changes nothing but what stands at its place or below. So directories are
made on the way to a place only; and whoever reads a table from a file or writes it there changes
nothing but what is in the directory of the file or on the way to it.
-/

namespace StyleMonitor

namespace Tree

variable {tree : Tree} {source target place : Place}

/-- What moves elsewhere leaves all as it was that is neither below the one place nor below the
other. -/
theorem lookup_move_of_apart (tree : Tree) (left : ¬ source <+: place) (free : ¬ target <+: place) :
    (tree.move source target).lookup place = tree.lookup place := by
  by_cases root : place = []
  · rw [root, lookup_root, lookup_root]
  rw [lookup, lookup, if_neg root, if_neg root, move]
  induction tree.nodes with
  | nil => rfl
  | cons entry rest ih =>
    obtain ⟨listed, node⟩ := entry
    rw [List.map_cons, List.lookup_cons, List.lookup_cons, ih]
    by_cases moved : source.isPrefixOf listed = true
    · have old : (place == listed) = false := by
        rw [beq_eq_false_iff_ne]
        rintro rfl
        exact left (List.isPrefixOf_iff_prefix.mp moved)
      have new : (place == target ++ listed.drop source.length) = false := by
        rw [beq_eq_false_iff_ne]
        rintro rfl
        exact free (List.prefix_append _ _)
      rw [relocate, if_pos moved, old, new]
    · rw [relocate, if_neg moved]

end Tree

namespace Disk

variable {disk other third : Disk} {path source target base name : String} {home goal place : Place}
  {reach wider : Place → Prop} {content : Bytes}

/-! ### What stays as it was -/

/-- The disks differ in what stands at such places only. -/
def SameBut (reach : Place → Prop) (disk other : Disk) : Prop :=
  ∀ place, ¬ reach place → other.tree.lookup place = disk.tree.lookup place

theorem SameBut.refl (reach : Place → Prop) (disk : Disk) : SameBut reach disk disk :=
  fun _ _ => rfl

theorem SameBut.trans (first : SameBut reach disk other) (second : SameBut reach other third) :
    SameBut reach disk third :=
  fun place away => (second place away).trans (first place away)

theorem SameBut.mono (same : SameBut reach disk other)
    (within : ∀ place, reach place → wider place) :
    SameBut wider disk other :=
  fun place away => same place fun reached => away (within place reached)

/-! ### Calls -/

theorem makeDirectory_sameBut (downward : Downward path)
    (unled : Unled disk.tree false [] (names path)) (h : disk.makeDirectory path = .ok other) :
    SameBut (· = steps path) disk other ∧
      ∀ place, disk.tree.Direct place → other.tree.Direct place := by
  obtain ⟨_, spot, rfl⟩ := exists_of_makeDirectory h
  obtain rfl : _ = steps path := downward.place unled spot
  exact ⟨fun place apart => Tree.lookup_insert_of_ne _ apart _,
    fun place direct => direct.insert _ nofun⟩

theorem create_sameBut (downward : Downward path)
    (unled : Unled disk.tree false [] (names path)) (h : disk.create path = .ok other) :
    SameBut (· = steps path) disk other ∧
      (∀ place, disk.tree.Direct place → other.tree.Direct place) ∧
      ∀ target, other.tree.lookup (steps path) ≠ some (.link target) := by
  obtain ⟨_, spot, -, rfl⟩ := exists_of_create h
  obtain rfl : _ = steps path := downward.place unled spot
  refine ⟨fun place apart => Tree.lookup_insert_of_ne _ apart _,
    fun place direct => direct.insert _ nofun, fun target => ?_⟩
  by_cases root : steps path = []
  · rw [root, Tree.lookup_root]
    nofun
  · rw [Tree.lookup_insert_self _ root]
    nofun

theorem remove_sameBut (downward : Downward path)
    (unled : Unled disk.tree false [] (names path)) (h : disk.remove path = .ok other) :
    SameBut (· = steps path) disk other ∧
      ∀ place, disk.tree.Direct place → other.tree.Direct place := by
  obtain ⟨_, _, _, spot, -, -, rfl⟩ := exists_of_remove h
  obtain rfl : _ = steps path := downward.place unled spot
  exact ⟨fun place apart => Tree.lookup_erase_of_ne _ apart, fun place direct => direct.erase _⟩

theorem write_sameBut (downward : Downward path)
    (unled : Unled disk.tree true [] (names path)) (h : disk.write path content = .ok other) :
    SameBut (· = steps path) disk other ∧
      ∀ place, disk.tree.Direct place → other.tree.Direct place := by
  obtain ⟨_, _, _, spot, -, -, rfl⟩ := exists_of_write h
  obtain rfl : _ = steps path := downward.place unled spot
  exact ⟨fun place apart => Tree.lookup_insert_of_ne _ apart _,
    fun place direct => direct.insert _ nofun⟩

theorem rename_sameBut (old : Downward source) (new : Downward target)
    (unledOld : Unled disk.tree false [] (names source))
    (unledNew : Unled disk.tree false [] (names target))
    (h : disk.rename source target = .ok other) :
    SameBut (fun place => steps source <+: place ∨ steps target <+: place) disk other := by
  obtain ⟨from_place, to_place, _, _, from_source, to_target, -, moved⟩ := rename_ok_iff.mp h
  rw [← old.place unledOld from_source, ← new.place unledNew to_target]
  rcases moved with ⟨-, rfl⟩ | ⟨-, -, -, rfl⟩
  · exact .refl _ _
  intro place away
  rw [not_or] at away
  have apart : place ≠ to_place := by
    rintro rfl
    exact away.2 List.prefix_rfl
  rw [Tree.lookup_move_of_apart _ away.1 away.2, Tree.lookup_erase_of_ne _ apart]

/-! ### Paths in a directory -/

/-- A path to a name in the directory at a place. -/
structure LiesIn (home : Place) (path : String) : Prop where
  downward : Downward path
  named : ∃ front name, names path = front ++ [name] ∧ name ≠ "." ∧
    front.filter (· ≠ ".") = home

theorem LiesIn.exists_steps (lies : LiesIn home path) : ∃ name, steps path = home ++ [name] := by
  obtain ⟨front, name, split, proper, rfl⟩ := lies.named
  refine ⟨name, ?_⟩
  rw [steps, split, List.filter_append, List.filter_cons_of_pos (by simpa using proper),
    List.filter_nil]

theorem LiesIn.below (lies : LiesIn home path) : home <+: steps path := by
  obtain ⟨name, split⟩ := lies.exists_steps
  rw [split]
  exact List.prefix_append _ _

/-- The directory itself stands higher. -/
theorem LiesIn.not_prefix (lies : LiesIn home path) (higher : place <+: home) :
    ¬ steps path <+: place := by
  obtain ⟨name, split⟩ := lies.exists_steps
  intro starts
  have short := (starts.trans higher).length_le
  rw [split, List.length_append, List.length_singleton] at short
  omega

theorem LiesIn.unled (lies : LiesIn home path) (direct : disk.tree.Direct home) :
    Unled disk.tree false [] (names path) := by
  obtain ⟨front, name, split, -, inside⟩ := lies.named
  rw [← inside] at direct
  rw [split]
  refine unled_of_last List.getLast?_concat ?_
  rw [List.dropLast_concat]
  exact direct

theorem Downward.liesIn_join (downward : Downward base) (isName : Path.IsName name) :
    LiesIn (steps base) (Path.join base name) where
  downward := by
    refine downward.join isName.isAbsolute ?_
    rw [steps, names_of_isName isName]
    intro member
    exact isName.ne_parent (List.mem_singleton.mp (List.mem_of_mem_filter member)).symm
  named := ⟨names base, name, by rw [names_join isName.isAbsolute, names_of_isName isName],
    isName.ne_here, rfl⟩

/-- A path to a name in a directory, taken apart. -/
theorem LiesIn.parts (lies : LiesIn home path) : ∃ parts name,
    Path.components path = parts ++ [.name name] ∧ Path.IsName name ∧
      Downward (Path.ofComponents parts) ∧ steps (Path.ofComponents parts) = home := by
  obtain ⟨name, split⟩ := lies.exists_steps
  have whole : Path.components path = (.root :: home.map .name) ++ [.name name] := by
    rw [lies.downward.components, split, List.map_append]
    rfl
  have own : Path.components (Path.ofComponents (Path.components path).dropLast) =
      (Path.components path).dropLast := Path.components_dropLast
  rw [whole, List.dropLast_concat] at own
  have climbs : steps (Path.ofComponents (.root :: home.map .name)) = home := by
    rw [steps_eq, own, List.filterMap_cons_none rfl, List.filterMap_map]
    exact List.filterMap_some
  refine ⟨_, name, whole, ?_, ⟨?_, ?_⟩, climbs⟩
  · exact (Path.components_spelled path).isName name (by rw [whole]; simp)
  · rw [Path.isAbsolute_eq, own]
    rfl
  · rw [climbs]
    exact fun member => lies.downward.down (lies.below.subset member)

/-- The directory of a path. -/
theorem LiesIn.directory (lies : LiesIn home path) :
    Downward (Session.directoryOf path) ∧ steps (Session.directoryOf path) = home := by
  obtain ⟨parts, name, whole, -, downward, climbs⟩ := lies.parts
  have named : Path.ofComponents parts ≠ "" := by
    intro empty
    have rooted := downward.rooted
    rw [empty] at rooted
    cases rooted
  have parent : Path.parent? path = some (Path.ofComponents parts) := by
    unfold Path.parent?
    rw [whole, List.getLast?_concat, List.dropLast_concat]
  have same : Session.directoryOf path = Path.ofComponents parts := by
    rw [Session.directoryOf, parent]
    exact if_neg named
  rw [same]
  exact ⟨downward, climbs⟩

/-- The parked file has a name in the same directory. -/
theorem LiesIn.backup (lies : LiesIn home path) : LiesIn home (Session.backupPath path) := by
  obtain ⟨parts, name, whole, isName, downward, climbs⟩ := lies.parts
  have file : Path.fileName? path = some name := by
    unfold Path.fileName?
    rw [whole, List.getLast?_concat]
  have same : Session.backupPath path =
      Path.join (Path.ofComponents parts) ((Path.splitName name).1 ++ ".bak") := by
    unfold Session.backupPath Path.withExtension
    simp only [file, whole, List.dropLast_concat, Path.ofComponents_append, Component.text,
      String.append_assoc]
    rfl
  rw [same, ← climbs]
  exact downward.liesIn_join (Path.isName_withExtension isName)

/-! ### What sessions keep -/

/-- Only on the way to a place has anything changed. -/
structure Grows (goal : Place) (disk other : Disk) : Prop where
  sound : disk.Sound → other.Sound
  direct : other.tree.Direct goal
  same : SameBut (· <+: goal) disk other

theorem Grows.makeDirectory (grows : Grows goal disk other) (downward : Downward path)
    (below : steps path <+: goal) (h : other.makeDirectory path = .ok third) :
    Grows goal disk third := by
  obtain ⟨same, direct⟩ :=
    makeDirectory_sameBut downward (unled_of_direct (grows.direct.of_prefix below)) h
  refine ⟨fun sound => ?_, direct goal grows.direct, grows.same.trans (same.mono ?_)⟩
  · have sound := grows.sound sound
    obtain ⟨place, leads, missing, puts⟩ := makeDirectory_puts sound h
    exact sound.of_puts puts (Or.inl missing) fun _ => sound.parent leads
  · rintro _ rfl
    exact below

/-- Nothing has changed but in the directory at a place and on the way to it. -/
structure KeptTo (home : Place) (disk other : Disk) : Prop where
  direct : other.tree.Direct home
  same : SameBut (fun place => place <+: home ∨ home <+: place) disk other

/-- A call that changes only what is in the directory. -/
theorem KeptTo.of_inside (kept : KeptTo home disk other) (same : SameBut reach other third)
    (inside : ∀ place, reach place → home <+: place ∧ ¬ place <+: home) :
    KeptTo home disk third where
  direct := by
    intro above starts target stands
    rw [same above fun reached => (inside above reached).2 starts] at stands
    exact kept.direct above starts target stands
  same := kept.same.trans (same.mono fun place reached => Or.inr (inside place reached).1)

theorem LiesIn.inside (lies : LiesIn home path) (reached : steps path <+: place) :
    home <+: place ∧ ¬ place <+: home :=
  ⟨lies.below.trans reached, fun higher => lies.not_prefix higher reached⟩

theorem KeptTo.of_place (kept : KeptTo home disk other) (lies : LiesIn home path)
    (same : SameBut (· = steps path) other third) : KeptTo home disk third := by
  refine kept.of_inside same ?_
  rintro _ rfl
  exact lies.inside List.prefix_rfl

theorem KeptTo.remove (kept : KeptTo home disk other) (lies : LiesIn home path)
    (h : other.remove path = .ok third) : KeptTo home disk third :=
  kept.of_place lies (remove_sameBut lies.downward (lies.unled kept.direct) h).1

theorem KeptTo.rename (kept : KeptTo home disk other) (old : LiesIn home source)
    (new : LiesIn home target) (h : other.rename source target = .ok third) :
    KeptTo home disk third := by
  have same := rename_sameBut old.downward new.downward (old.unled kept.direct)
    (new.unled kept.direct) h
  exact kept.of_inside same fun place reached => reached.elim old.inside new.inside

end Disk

namespace Session

open Disk

variable {start disk : Disk} {path temporary : String} {home goal : Place}

/-- Directories are made on the way only. -/
theorem makeDirectories_grows (downward : Downward path) (below : steps path <+: goal)
    (direct : disk.tree.Direct goal) :
    Ensures (makeDirectories path) disk (fun _ => Grows goal disk) (Grows goal disk) := by
  refine makeDirectories_ensures ?_ ⟨id, direct, .refl _ _⟩
  intro above member one two grows made
  obtain ⟨rest, split⟩ := components_of_ancestor member
  have lower : steps above <+: steps path := by
    rw [steps_eq, steps_eq, ← split, List.filterMap_append]
    exact List.prefix_append _ _
  have named : Path.components above ≠ [] := by
    intro none
    apply steps_ne_nil_of_makeDirectory made
    rw [steps_eq, none]
    rfl
  have rooted : Path.isAbsolute above = true := by
    have start := Path.isAbsolute_eq path
    rwa [← split, List.head?_append_of_ne_nil _ named, ← Path.isAbsolute_eq, downward.rooted,
      eq_comm] at start
  have climbs : Downward above := ⟨rooted, fun member => downward.down (lower.subset member)⟩
  exact grows.makeDirectory climbs (lower.trans below) made

theorem makeDirectories_consumes (path : String) : Consumes (makeDirectories path) := by
  have isDirectory (path : String) : Consumes (isDirectory path) :=
    .bind (.attempt (.ask _)) fun result => by split <;> exact .pure _
  have upwards (paths : List String) : Consumes (makeUpwards paths) := by
    induction paths with
    | nil => exact .pure _
    | cons path above ih =>
      refine .bind (.attempt (.change _)) fun result => ?_
      cases result with
      | ok => exact .pure _
      | error failure =>
        dsimp only
        split
        · exact .bind ih fun _ => .pure _
        split
        · refine .bind (isDirectory path) fun answer => ?_
          split
          · exact .pure _
          · exact .throw _
        · exact .throw _
  have downwards (paths : List String) : Consumes (makeDownwards paths) := by
    induction paths with
    | nil => exact .pure _
    | cons path below ih =>
      refine .bind (.attempt (.change _)) fun result => ?_
      cases result with
      | ok => exact ih
      | error failure =>
        dsimp only
        split
        · refine .bind (isDirectory path) fun answer => ?_
          split
          · exact ih
          · exact .throw _
        · exact .throw _
  exact .bind (upwards _) fun missing => downwards _

theorem recoverBackup_keptTo (lies : LiesIn home path) (kept : KeptTo home start disk) :
    Ensures (recoverBackup path) disk (fun _ => KeptTo home start) (KeptTo home start) := by
  refine .bind (.isThere (fun _ => .pure kept) (.bind (.isThere (fun _ => ?_) (.pure kept))))
  refine .ignoring (.change ?_ kept)
  exact fun after renamed => kept.rename lies.backup lies renamed

theorem readText_ensures {bad : Disk → Prop} (undone : bad disk) :
    Ensures (readText path) disk (fun _ later => later = disk) bad := by
  refine .bind (.ask ?_ undone)
  intro content read
  split
  · exact .pure rfl
  · exact .throw undone

theorem replaceParked_keptTo (lies : LiesIn home path) (beside : LiesIn home temporary)
    (kept : KeptTo home start disk) :
    Ensures (replaceParked temporary path) disk (fun _ => KeptTo home start)
      (KeptTo home start) := by
  have cleared {one : Disk} (kept : KeptTo home start one) :
      Ensures (ignoring (remove (backupPath path))) one (fun _ => KeptTo home start)
        (KeptTo home start) :=
    .ignoring (.change (fun after removed => kept.remove lies.backup removed) kept)
  refine .bind ((cleared kept).mono ?_ fun _ kept => kept)
  intro _ later kept
  refine .bind (.change ?_ kept)
  intro parked renamed
  have kept := kept.rename lies lies.backup renamed
  refine .bind (.attempt (.change ?_ fun failure => ?_))
  · exact fun placed renamed => cleared (kept.rename beside lies renamed)
  · refine .bind (.ignoring (.change ?_ (.throw kept)))
    exact fun restored renamed => .throw (kept.rename lies.backup lies renamed)

theorem settle_keptTo (lies : LiesIn home path) (beside : LiesIn home temporary)
    (kept : KeptTo home start disk) :
    Ensures (settle temporary path) disk (fun _ => KeptTo home start) (KeptTo home start) := by
  refine .bind (.attempt (.change ?_ fun failure => ?_))
  · exact fun after renamed => .pure (kept.rename beside lies renamed)
  · exact .bind (.isThere (fun _ => replaceParked_keptTo lies beside kept) (.throw kept))

/-- Where a temporary file is made in a directory, no link stands. -/
theorem makeTemporary_keptTo {directory : String} (downward : Downward directory)
    (kept : KeptTo (steps directory) start disk) :
    Ensures (makeTemporary directory) disk
      (fun temporary later => KeptTo (steps directory) start later ∧
        LiesIn (steps directory) temporary ∧ later.tree.Direct (steps temporary))
      (KeptTo (steps directory) start) := by
  refine .call ?_ kept
  intro temporary later made
  dsimp only at made
  have rooted : Path.join disk.currentPath directory = directory :=
    Path.join_of_isAbsolute downward.rooted
  obtain ⟨n, fresh⟩ : ∃ n, freshName disk.tree = temporaryName n := ⟨_, rfl⟩
  have lies := downward.liesIn_join (isName_temporaryName n)
  rw [rooted, fresh] at made
  cases created : disk.create (Path.join directory (temporaryName n)) with
  | error failure =>
    rw [created] at made
    cases made
  | ok own =>
    rw [created] at made
    obtain ⟨rfl, rfl⟩ := Prod.mk.inj (Except.ok.inj made)
    obtain ⟨same, direct, unlinked⟩ := create_sameBut lies.downward (lies.unled kept.direct) created
    have kept' := kept.of_place lies same
    refine ⟨kept', lies, ?_⟩
    intro above starts target
    obtain ⟨name, split⟩ := lies.exists_steps
    rw [split] at starts unlinked
    rcases List.prefix_concat_iff.mp starts with rfl | higher
    · exact unlinked target
    · exact kept'.direct above higher target

/-- Writing a file as a whole changes nothing but what is in its directory or on the way to it. -/
theorem atomicWrite_keptTo (lies : LiesIn home path) (kept : KeptTo home start disk)
    (content : Bytes) :
    Ensures (atomicWrite path content) disk (fun _ => KeptTo home start) (KeptTo home start) := by
  obtain ⟨downward, rfl⟩ := lies.directory
  have direct := kept.direct
  have kept : ∀ later, Grows (steps (directoryOf path)) disk later →
      KeptTo (steps (directoryOf path)) start later := fun later grows =>
    ⟨grows.direct, kept.same.trans (grows.same.mono fun place => Or.inl)⟩
  refine .bind ((makeDirectories_grows downward List.prefix_rfl direct).mono ?_ kept)
  intro _ made grows
  refine .bind ((makeTemporary_keptTo downward (kept made grows)).mono ?_ fun _ kept => kept)
  rintro temporary begun ⟨kept, beside, straight⟩
  have finish : Ensures (do write temporary content; sync; settle temporary path) begun
      (fun _ => KeptTo (steps (directoryOf path)) start)
      (KeptTo (steps (directoryOf path)) start) := by
    refine .bind (.change ?_ kept)
    intro filled written
    have same := (write_sameBut beside.downward (unled_of_direct straight) written).1
    have kept := kept.of_place beside same
    refine .bind (.change ?_ kept)
    rintro _ ⟨⟩
    exact settle_keptTo lies beside kept
  refine .bind (.attempt (finish.mono ?_ ?_))
  · exact fun _ later kept => .pure kept
  · intro later kept failure
    refine .bind (.ignoring (.change ?_ (.throw kept)))
    exact fun after removed => .throw (kept.remove beside removed)

end Session

namespace Freshness

open Disk Session

variable {start disk : Disk} {path : String} {home : Place}

theorem readTable_keptTo (lies : LiesIn home path) (kept : KeptTo home start disk) :
    Ensures (readTable path) disk (fun _ => KeptTo home start) (KeptTo home start) := by
  refine .bind ((recoverBackup_keptTo lies kept).mono ?_ fun _ kept => kept)
  intro _ later kept
  refine .bind (.attempt ((readText_ensures fun failure => ?_).mono ?_ fun _ failed => failed))
  · exact .pure kept
  · rintro text _ rfl
    exact .pure kept

theorem changeTable_keptTo (lies : LiesIn home path) (kept : KeptTo home start disk)
    (change : PullTable → PullTable) :
    Ensures (changeTable path change) disk (fun _ => KeptTo home start) (KeptTo home start) := by
  refine .bind ((readTable_keptTo lies kept).mono ?_ fun _ kept => kept)
  exact fun table later kept => atomicWrite_keptTo lies kept _

end Freshness

end StyleMonitor
