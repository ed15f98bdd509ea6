import StyleMonitor.Proofs.Disk.Directories

/-!
# Writing a file as a whole

What a path holds is the content of its file or, where there is none, that of its parked file. A
write makes it hold the new content, and a write that fails leaves it what it was, whichever of its
calls fail and wherever it is stopped.
-/

namespace StyleMonitor

namespace Disk

variable {disk other : Disk} {path temporary : String} {content : Bytes}

/-- What a path holds: its file, or else its parked file. -/
def held? (disk : Disk) (path : String) : Option Bytes :=
  (disk.file? path).or (disk.file? (Session.backupPath path))

/-- What a write that fails leaves: the path holds what it held, and it has no file of its own if
it had none. -/
structure Spares (path : String) (disk later : Disk) : Prop where
  held : later.held? path = disk.held? path
  missing : disk.file? path = none → later.file? path = none

/-- A file is where it was, or it is parked. -/
theorem Spares.kept_or_parked (spares : Spares path disk other)
    (file : disk.file? path = some content) : other.file? path = some content ∨
      other.file? path = none ∧ other.file? (Session.backupPath path) = some content := by
  have held := spares.held
  rw [held?, held?, file, Option.some_or] at held
  cases own : other.file? path with
  | some now =>
    rw [own, Option.some_or] at held
    exact Or.inl held
  | none =>
    rw [own, Option.none_or] at held
    exact Or.inr ⟨rfl, held⟩

/-- A path whose file is told apart from its parked file and from temporary files. -/
structure Storable (path : String) : Prop where
  extension : Path.extension? path ≠ some "bak"
  lasting : ∀ n, Path.fileName? path ≠ some (Session.temporaryName n)

/-- A disk on which a path holds a file, a parked file, both or none, and nothing else. -/
structure Tended (path : String) (disk : Disk) : Prop where
  sound : disk.Sound
  upward : disk.Upward path
  plain : disk.Plain path
  plainBackup : disk.Plain (Session.backupPath path)
  recoverable : disk.file? (Session.backupPath path) ≠ none → disk.Clear path

/-- The same, where it may not be `assured` that a parked file can be put back. -/
structure Ready (assured : Prop) (path : String) (disk : Disk) : Prop where
  sound : disk.Sound
  upward : disk.Upward path
  plain : disk.Plain path
  plainBackup : disk.Plain (Session.backupPath path)
  recoverable : assured → disk.file? (Session.backupPath path) ≠ none → disk.Clear path

theorem ready_iff_tended : Ready True path disk ↔ Tended path disk where
  mp := fun ⟨sound, upward, plain, plainBackup, recoverable⟩ =>
    ⟨sound, upward, plain, plainBackup, recoverable trivial⟩
  mpr := fun ⟨sound, upward, plain, plainBackup, recoverable⟩ =>
    ⟨sound, upward, plain, plainBackup, fun _ => recoverable⟩

/-- A path is in order that leads to a place for a file, and to one beside it for a parked file. -/
theorem tended_of_leads {own parked : Place} (sound : disk.Sound) (down : ".." ∉ steps path)
    (no_slash : Path.endsInSlash path = false) (leads : disk.leads path = some (own, true))
    (leaf : Node.IsLeaf (disk.tree.lookup own))
    (leadsBackup : disk.leads (Session.backupPath path) = some (parked, true))
    (leafBackup : Node.IsLeaf (disk.tree.lookup parked)) : Tended path disk where
  sound := sound
  upward := upward_of_not_mem down disk
  plain := plain_of_leads leads leaf
  plainBackup := plain_of_leads leadsBackup leafBackup
  recoverable := fun _ => ⟨⟨own, leads⟩, no_slash⟩

/-! ### Names beside each other -/

theorem fileName?_of_endsIn {place : Place} (ends : EndsIn (names path) place) :
    ∃ name, Path.fileName? path = some name ∧ place.getLast? = some name := by
  obtain ⟨name, last, there, fits⟩ := ends
  refine ⟨name, fileName?_of_steps ?_ fits.ne_parent, there⟩
  obtain ⟨front, split⟩ := List.getLast?_eq_some_iff.mp last
  rw [steps, split, List.filter_append, List.filter_cons_of_pos (by simpa using fits.ne_here)]
  exact List.getLast?_concat

/-- A place that a path leads to has the name of the path's file. -/
theorem fileName?_of_leads {place : Place} (leads : disk.leads path = some (place, true)) :
    ∃ name, Path.fileName? path = some name ∧ place.getLast? = some name :=
  fileName?_of_endsIn (endsIn_of_leads leads)

theorem fileName?_backup {name : String} (h : Path.fileName? path = some name) :
    Path.fileName? (Session.backupPath path) = some ((Path.splitName name).1 ++ ".bak") := by
  unfold Path.fileName?
  rw [Session.backupPath, Path.components_withExtension h, List.getLast?_concat]

theorem apart_of_names {first second : String}
    (differ : ∀ one two, Path.fileName? first = some one → Path.fileName? second = some two →
      one ≠ two) (disk : Disk) : disk.Apart first second := by
  rintro old new leads leads' rfl
  obtain ⟨one, own, last⟩ := fileName?_of_leads leads
  obtain ⟨two, own', last'⟩ := fileName?_of_leads leads'
  rw [last] at last'
  exact differ one two own own' (Option.some.inj last')

theorem Storable.apart (storable : Storable path) (disk : Disk) :
    disk.Apart path (Session.backupPath path) := by
  refine apart_of_names ?_ disk
  intro one two own own'
  rw [fileName?_backup own] at own'
  cases own'
  apply Path.ne_withExtension
  intro bak
  apply storable.extension
  rw [Path.extension?, own]
  exact bak

theorem Storable.apart_temporary {n : Nat} (storable : Storable path)
    (named : Path.fileName? temporary = some (Session.temporaryName n)) (disk : Disk) :
    disk.Apart temporary path ∧ disk.Apart temporary (Session.backupPath path) := by
  constructor
  · refine apart_of_names ?_ disk
    rintro one two own own' rfl
    rw [named] at own
    cases own
    exact storable.lasting n own'
  · refine apart_of_names ?_ disk
    rintro one two own own' rfl
    rw [named] at own
    cases own
    cases file : Path.fileName? path with
    | none =>
      rw [Session.backupPath, Path.withExtension, file] at own'
      simp only at own'
      rw [file] at own'
      cases own'
    | some name =>
      rw [fileName?_backup file] at own'
      exact temporaryName_ne_backup n _ (Option.some.inj own').symm

/-- A path that names no file is its own backup, any other path differs from it in its last
component. -/
theorem components_backup (path : String) : Session.backupPath path = path ∨
    ∃ front name, Path.components path = front ++ [.name name] ∧
      Path.components (Session.backupPath path) =
        front ++ [.name ((Path.splitName name).1 ++ ".bak")] := by
  cases file : Path.fileName? path with
  | none =>
    refine Or.inl ?_
    rw [Session.backupPath, Path.withExtension, file]
  | some name =>
    obtain ⟨front, split⟩ := Path.fileName?_eq file
    refine Or.inr ⟨front, name, split, ?_⟩
    rw [Session.backupPath, Path.components_withExtension file, split, List.dropLast_concat]

theorem Upward.backup (upward : disk.Upward path) :
    disk.Upward (Session.backupPath path) := by
  rcases components_backup path with same | ⟨front, name, own, backup⟩
  · rw [same]
    exact upward
  · have start : disk.origin (Session.backupPath path) = disk.origin path := by
      rw [origin, origin, Path.isAbsolute_eq, Path.isAbsolute_eq, own, backup]
      cases front <;> rfl
    intro before after split
    rw [steps_eq, backup, List.filterMap_append] at split
    have last : (front.filterMap Component.step? ++ [(Path.splitName name).1 ++ ".bak"]) =
        before ++ ".." :: after := split
    cases after using List.reverseRecOn with
    | nil =>
      have up := (List.append_inj' last rfl).2
      have isName := Path.isName_withExtension
        ((Path.components_spelled path).isName name (by rw [own]; simp))
      exact absurd (List.cons.inj up).1 isName.ne_parent
    | append_singleton after final =>
      have front_eq : front.filterMap Component.step? = before ++ ".." :: after := by
        rw [← List.cons_append, ← List.append_assoc] at last
        exact (List.append_inj' last rfl).1
      rw [start]
      apply upward before (after ++ [name])
      rw [steps_eq, own, List.filterMap_append, front_eq]
      simp [Component.step?]

theorem beyond_path_and_backup {above : String}
    (member : above ∈ Path.ancestors (Session.directoryOf path)) (some : steps above ≠ []) :
    Beyond above path ∧ Beyond above (Session.backupPath path) := by
  have whole := (components_of_directoryOf member some).1
  have own : Beyond above path :=
    beyond_of_ancestor member some (List.dropLast_append_getLast whole).symm
  refine ⟨own, ?_⟩
  rcases components_backup path with same | ⟨front, name, split, backup⟩
  · rw [same]
    exact own
  · apply beyond_of_ancestor member some
    rw [backup, split, List.dropLast_concat]

/-- What is known of a path and its backup while directories above them are made. -/
structure Prepared (path : String) (disk other : Disk) : Prop where
  sound : other.Sound
  file : Grown disk other path
  parked : Grown disk other (Session.backupPath path)

section
variable {assured : Prop}

theorem Prepared.refl (ready : Ready assured path disk) : Prepared path disk disk where
  sound := ready.sound
  file := .refl ready.upward ready.plain
  parked := .refl ready.upward.backup ready.plainBackup

theorem Prepared.makeDirectory {above : String} {later : Disk}
    (prepared : Prepared path disk other)
    (member : above ∈ Path.ancestors (Session.directoryOf path))
    (made : other.makeDirectory above = .ok later) : Prepared path disk later := by
  have goes := steps_ne_nil_of_makeDirectory made
  obtain ⟨beyond, beyondBackup⟩ := beyond_path_and_backup member goes
  obtain ⟨sound, file⟩ := prepared.file.makeDirectory prepared.sound beyond made
  obtain ⟨-, parked⟩ := prepared.parked.makeDirectory prepared.sound beyondBackup made
  exact ⟨sound, file, parked⟩

theorem Prepared.held? (prepared : Prepared path disk other) :
    other.held? path = disk.held? path := by
  rw [Disk.held?, Disk.held?, prepared.file.file, prepared.parked.file]

theorem Prepared.ready (prepared : Prepared path disk other) (ready : Ready assured path disk) :
    Ready assured path other where
  sound := prepared.sound
  upward := prepared.file.upward
  plain := prepared.file.plain
  plainBackup := prepared.parked.plain
  recoverable sure parked := by
    rw [prepared.parked.file] at parked
    obtain ⟨⟨place, leads⟩, slash⟩ := ready.recoverable sure parked
    have same := prepared.file.leads (by rw [leads]; nofun)
    exact ⟨⟨place, same.trans leads⟩, slash⟩

end

theorem Upward.alike (upward : disk.Upward path) (alike : disk.Alike other) (sound : disk.Sound)
    (sound' : other.Sound) : other.Upward path := by
  intro before after split
  obtain ⟨place, named, walked⟩ := upward before after split
  have start : other.origin path = disk.origin path := by rw [origin, origin, alike.current]
  have same := walk_alike alike.tree true maxLinks (disk.origin path) before
  rw [walked] at same
  cases found : walk other.tree true maxLinks (disk.origin path) before with
  | error cause =>
    rw [found] at same
    cases same
  | ok spot =>
    rw [found] at same
    obtain ⟨there, node, ends⟩ := spot
    cases same
    refine ⟨place, named, ?_⟩
    rw [start, found]
    have own := (walk_sound sound.grounded (sound.origin path) walked).node
    have later := (walk_sound sound'.grounded (start ▸ sound'.origin path) found).node
    simp only at own later
    rw [alike.tree.directory own] at later
    rw [← later]

/-! ### Putting the parked file back -/

/-- The parked file can be put back, and then it is what the path holds. -/
theorem Tended.recover (storable : Storable path) (tended : Tended path disk)
    (parked : disk.file? (Session.backupPath path) = some content) :
    ∃ after, disk.rename (Session.backupPath path) path = .ok after ∧ Tended path after ∧
      after.file? path = some content := by
  have clear := tended.recoverable (by rw [parked]; nofun)
  obtain ⟨after, renamed⟩ :=
    rename_of_clear tended.sound tended.plainBackup tended.plain parked clear
  obtain ⟨moved, renames⟩ := rename_renames tended.sound tended.plainBackup tended.plain
    (storable.apart disk).symm renamed
  have same := parked.symm.trans renames.was
  cases same
  refine ⟨after, renamed, ⟨renames.sound, ?_, ?_, ?_, ?_⟩, renames.file⟩
  · exact tended.upward.alike renames.alike tended.sound renames.sound
  · exact renames.alike.plain tended.plain
  · exact renames.alike.plain tended.plainBackup
  · intro some
    exact absurd renames.gone some

/-! ### While a write is under way -/

/-- A path, its backup and a temporary file, and what is known of them. -/
structure Staged (path temporary : String) (disk : Disk) : Prop where
  sound : disk.Sound
  upward : disk.Upward path
  plain : disk.Plain path
  plainBackup : disk.Plain (Session.backupPath path)
  plainTemporary : disk.Plain temporary
  apart : disk.Apart path (Session.backupPath path)
  apartTemporary : disk.Apart temporary path
  apartBoth : disk.Apart temporary (Session.backupPath path)

theorem Staged.alike (staged : Staged path temporary disk) (alike : disk.Alike other)
    (sound : other.Sound) : Staged path temporary other where
  sound := sound
  upward := staged.upward.alike alike staged.sound sound
  plain := alike.plain staged.plain
  plainBackup := alike.plain staged.plainBackup
  plainTemporary := alike.plain staged.plainTemporary
  apart := staged.apart.alike alike
  apartTemporary := staged.apartTemporary.alike alike
  apartBoth := staged.apartBoth.alike alike

section
variable {assured : Prop} {own backup draft : Option Bytes}

/-- What the path, its backup and the temporary file read as. -/
structure Holding (assured : Prop) (path temporary : String) (own backup draft : Option Bytes)
    (disk : Disk) : Prop where
  staged : Staged path temporary disk
  file : disk.file? path = own
  parked : disk.file? (Session.backupPath path) = backup
  written : disk.file? temporary = draft
  recoverable : assured → backup ≠ none → disk.Clear path

theorem Holding.ready (holding : Holding assured path temporary own backup draft disk) :
    Ready assured path disk where
  sound := holding.staged.sound
  upward := holding.staged.upward
  plain := holding.staged.plain
  plainBackup := holding.staged.plainBackup
  recoverable sure some := holding.recoverable sure (by rwa [holding.parked] at some)

theorem Holding.held? (holding : Holding assured path temporary own backup draft disk) :
    disk.held? path = own.or backup := by
  rw [Disk.held?, holding.file, holding.parked]

/-- The temporary file takes the place of the path's file. -/
theorem Holding.publish (holding : Holding assured path temporary own backup (some content) disk)
    (h : disk.rename temporary path = .ok other) :
    Holding assured path temporary (some content) backup none other := by
  obtain ⟨staged, was, parked, written, -⟩ := holding
  obtain ⟨moved, renames⟩ :=
    rename_renames staged.sound staged.plainTemporary staged.plain staged.apartTemporary h
  rw [renames.was] at written
  cases written
  refine ⟨staged.alike renames.alike renames.sound, renames.file, ?_, renames.gone,
    fun _ _ => renames.clear.alike renames.alike⟩
  rw [renames.others _ staged.plainBackup staged.apartBoth staged.apart, parked]

/-- The path's file is parked. -/
theorem Holding.park (holding : Holding assured path temporary own backup draft disk)
    (h : disk.rename path (Session.backupPath path) = .ok other) :
    ∃ moved, own = some moved ∧ Holding assured path temporary none (some moved) draft other := by
  obtain ⟨staged, was, parked, written, -⟩ := holding
  obtain ⟨moved, renames⟩ :=
    rename_renames staged.sound staged.plain staged.plainBackup staged.apart h
  refine ⟨moved, was.symm.trans renames.was, staged.alike renames.alike renames.sound,
    renames.gone, renames.file, ?_, ?_⟩
  · rw [renames.others _ staged.plainTemporary staged.apartTemporary.symm staged.apartBoth.symm,
      written]
  · intro _ _
    exact (clear_of_file? staged.sound staged.plain renames.was).alike renames.alike

/-- The parked file is put back. -/
theorem Holding.restore (holding : Holding assured path temporary own backup draft disk)
    (h : disk.rename (Session.backupPath path) path = .ok other) :
    ∃ moved, backup = some moved ∧ Holding assured path temporary (some moved) none draft other := by
  obtain ⟨staged, was, parked, written, -⟩ := holding
  obtain ⟨moved, renames⟩ :=
    rename_renames staged.sound staged.plainBackup staged.plain staged.apart.symm h
  refine ⟨moved, parked.symm.trans renames.was, staged.alike renames.alike renames.sound,
    renames.file, renames.gone, ?_, fun _ some => absurd rfl some⟩
  rw [renames.others _ staged.plainTemporary staged.apartBoth.symm staged.apartTemporary.symm,
    written]

theorem Holding.discardBackup (holding : Holding assured path temporary own backup draft disk)
    (h : disk.remove (Session.backupPath path) = .ok other) :
    Holding assured path temporary own none draft other := by
  obtain ⟨staged, was, -, written, -⟩ := holding
  have sets := remove_sets staged.sound staged.plainBackup h
  refine ⟨staged.alike sets.alike sets.sound, ?_, sets.file, ?_, fun _ some => absurd rfl some⟩
  · rw [sets.others _ staged.plain staged.apart.symm, was]
  · rw [sets.others _ staged.plainTemporary staged.apartBoth.symm, written]

/-- A change of the temporary file alone. -/
theorem Holding.sets {new : Option Bytes}
    (holding : Holding assured path temporary own backup draft disk)
    (sets : Sets disk other temporary new) : Holding assured path temporary own backup new other := by
  obtain ⟨staged, was, parked, -, recoverable⟩ := holding
  refine ⟨staged.alike sets.alike sets.sound, ?_, ?_, sets.file,
    fun sure some => (recoverable sure some).alike sets.alike⟩
  · rw [sets.others _ staged.plain staged.apartTemporary, was]
  · rw [sets.others _ staged.plainBackup staged.apartBoth, parked]

end

end Disk

namespace Session

open Disk

variable {disk : Disk} {path temporary : String} {content : Bytes} {own backup : Option Bytes}
  {assured : Prop}

theorem replaceParked_ensures {old : Bytes}
    (holding : Holding assured path temporary (some old) backup (some content) disk) :
    Ensures (replaceParked temporary path) disk
      (fun _ disk => ∃ backup draft, Holding assured path temporary (some content) backup draft disk)
      (fun disk => ∃ own backup draft, Holding assured path temporary own backup draft disk ∧
        own.or backup = some old) := by
  have cleared : Ensures (ignoring (remove (backupPath path))) disk
      (fun _ later => ∃ backup, Holding assured path temporary (some old) backup (some content) later)
      (fun _ => False) := by
    refine .ignoring (.change ?_ ⟨_, holding⟩)
    intro after removed
    exact ⟨_, holding.discardBackup removed⟩
  refine .bind (cleared.mono ?_ fun _ never => never.elim)
  rintro _ later ⟨backup, holding⟩
  refine .bind (.change ?_ ⟨_, _, _, holding, rfl⟩)
  intro parked renamed
  obtain ⟨_, ⟨⟩, holding⟩ := holding.park renamed
  -- Now no file is at the path, and what it holds is parked.
  refine .bind (.attempt (.change ?_ fun failure => ?_))
  · intro placed renamed
    have holding := holding.publish renamed
    refine .ignoring (.change ?_ ⟨_, _, holding⟩)
    intro after removed
    exact ⟨_, _, holding.discardBackup removed⟩
  · refine .bind (.ignoring (.change ?_ (.throw ⟨_, _, _, holding, rfl⟩)))
    intro restored renamed
    obtain ⟨_, ⟨⟩, holding⟩ := holding.restore renamed
    exact .throw ⟨_, _, _, holding, rfl⟩

theorem settle_ensures (holding : Holding assured path temporary own backup (some content) disk) :
    Ensures (settle temporary path) disk
      (fun _ disk => ∃ backup draft, Holding assured path temporary (some content) backup draft disk)
      (fun disk => ∃ own' backup' draft, Holding assured path temporary own' backup' draft disk ∧
        own'.or backup' = own.or backup ∧ (own = none → own' = none)) := by
  refine .bind (.attempt (.change ?_ fun failure => ?_))
  · intro after renamed
    exact .pure ⟨_, _, holding.publish renamed⟩
  · refine .bind (.isThere ?_ (.throw ⟨_, _, _, holding, rfl, id⟩))
    intro there
    rw [isThere_eq holding.staged.sound holding.staged.plain, holding.file] at there
    obtain ⟨old, rfl⟩ := Option.isSome_iff_exists.mp there
    refine (replaceParked_ensures holding).mono (fun _ _ replaced => replaced) ?_
    rintro later ⟨own, backup, draft, holding, kept⟩
    exact ⟨own, backup, draft, holding, kept, nofun⟩

/-- The path of a temporary file ends in a name of its own. -/
theorem fileName?_temporary {directory : String} {after : Disk}
    (sound : disk.Sound) (h : disk.create (Path.join directory (freshName disk.tree)) = .ok after) :
    ∃ n, Path.fileName? (Path.join directory (freshName disk.tree)) = some (temporaryName n) := by
  obtain ⟨n, fresh⟩ : ∃ n, freshName disk.tree = temporaryName n := ⟨_, rfl⟩
  obtain ⟨place, leads, -, -, -⟩ := create_puts sound h
  rw [fresh] at leads ⊢
  have isName := isName_temporaryName n
  have ends := endsIn_of_leads leads
  obtain ⟨name, named, there⟩ := fileName?_of_endsIn ends
  obtain ⟨other, last, there', -⟩ := ends
  rw [there] at there'
  cases there'
  rw [names_join isName.isAbsolute, names_of_isName isName, List.getLast?_concat] at last
  cases last
  exact ⟨n, named⟩

theorem makeTemporary_ensures {directory : String} (storable : Storable path)
    (ready : Ready assured path disk) :
    Ensures (makeTemporary directory) disk
      (fun temporary later => Holding assured path temporary (disk.file? path)
        (disk.file? (backupPath path)) (some []) later)
      (fun later => later = disk) := by
  refine .call ?_ rfl
  intro temporary later made
  dsimp only at made
  cases created : disk.create (Path.join (Path.join disk.currentPath directory)
      (freshName disk.tree)) with
  | error failure =>
    rw [created] at made
    cases made
  | ok own =>
    rw [created] at made
    obtain ⟨rfl, rfl⟩ := Prod.mk.inj (Except.ok.inj made)
    obtain ⟨n, named⟩ := fileName?_temporary ready.sound created
    obtain ⟨plain, -, sets⟩ := create_sets ready.sound created
    obtain ⟨apart, apartBoth⟩ := storable.apart_temporary named disk
    have staged : Staged path _ disk :=
      ⟨ready.sound, ready.upward, ready.plain, ready.plainBackup, plain, storable.apart disk,
        apart, apartBoth⟩
    exact Holding.sets ⟨staged, rfl, rfl, rfl, ready.recoverable⟩ sets

/-- A write gives a path its new content or fails and spares what was there, whichever of its calls
are refused. -/
theorem atomicWrite_ensures_spared (storable : Storable path) (ready : Ready assured path disk)
    (content : Bytes) :
    Ensures (atomicWrite path content) disk
      (fun _ later => Ready assured path later ∧ later.file? path = some content)
      (fun later => Ready assured path later ∧ Spares path disk later) := by
  have each : ∀ above ∈ Path.ancestors (directoryOf path), ∀ one two,
      Prepared path disk one → one.makeDirectory above = .ok two → Prepared path disk two :=
    fun above member one two prepared made => prepared.makeDirectory member made
  have spared : ∀ later, Prepared path disk later → Spares path disk later :=
    fun later prepared => ⟨prepared.held?, prepared.file.file.trans⟩
  refine .bind ((makeDirectories_ensures each (.refl ready)).mono ?_ ?_)
  rotate_left
  · intro later prepared
    exact ⟨prepared.ready ready, spared later prepared⟩
  intro _ made prepared
  obtain ⟨same, missing⟩ := spared made prepared
  refine .bind ((makeTemporary_ensures storable (prepared.ready ready)).mono ?_ ?_)
  rotate_left
  · rintro later rfl
    exact ⟨prepared.ready ready, same, missing⟩
  intro temporary begun holding
  -- What is known after the three calls, of which any may have failed.
  have finish : Ensures (do write temporary content; sync; settle temporary path) begun
      (fun _ later => ∃ backup draft, Holding assured path temporary (some content) backup draft later)
      (fun later => ∃ own backup draft, Holding assured path temporary own backup draft later ∧
        own.or backup = disk.held? path ∧ (disk.file? path = none → own = none)) := by
    refine .bind (.change ?_ ⟨_, _, _, holding, same, missing⟩)
    intro filled written
    have sets := write_sets holding.staged.sound holding.staged.plainTemporary written
    have holding := holding.sets sets
    refine .bind (.change ?_ ⟨_, _, _, holding, same, missing⟩)
    rintro _ ⟨⟩
    refine (settle_ensures holding).mono (fun _ _ settled => settled) ?_
    rintro later ⟨own, backup, draft, holding, kept, gone⟩
    exact ⟨own, backup, draft, holding, kept.trans same, fun none => gone (missing none)⟩
  refine .bind (.attempt (finish.mono ?_ ?_))
  · rintro _ later ⟨backup, draft, holding⟩
    exact .pure ⟨holding.ready, holding.file⟩
  · rintro later ⟨own, backup, draft, holding, kept, gone⟩ failure
    have spares : ∀ {disk' draft}, Holding assured path temporary own backup draft disk' →
        Ready assured path disk' ∧ Spares path disk disk' :=
      fun holding => ⟨holding.ready, holding.held?.trans kept, fun none => holding.file.trans (gone none)⟩
    refine .bind (.ignoring (.change ?_ (.throw (spares holding))))
    intro after removed
    exact .throw (spares (holding.sets
      (remove_sets holding.staged.sound holding.staged.plainTemporary removed)))

/-- A write gives a path its new content or fails and leaves it what it held, whichever of its
calls are refused. -/
theorem atomicWrite_ensures_ready (storable : Storable path) (ready : Ready assured path disk)
    (content : Bytes) :
    Ensures (atomicWrite path content) disk
      (fun _ later => Ready assured path later ∧ later.file? path = some content)
      (fun later => Ready assured path later ∧ later.held? path = disk.held? path) := by
  refine (atomicWrite_ensures_spared storable ready content).mono (fun _ _ written => written) ?_
  rintro later ⟨ready, spares⟩
  exact ⟨ready, spares.held⟩

theorem atomicWrite_ensures (storable : Storable path) (tended : Tended path disk)
    (content : Bytes) :
    Ensures (atomicWrite path content) disk
      (fun _ later => Tended path later ∧ later.file? path = some content)
      (fun later => Tended path later ∧ later.held? path = disk.held? path) := by
  refine (atomicWrite_ensures_ready storable (ready_iff_tended.mpr tended) content).mono ?_ ?_
  · rintro _ later ⟨ready, file⟩
    exact ⟨ready_iff_tended.mp ready, file⟩
  · rintro later ⟨ready, held⟩
    exact ⟨ready_iff_tended.mp ready, held⟩

end Session

end StyleMonitor
