import Mathlib.Data.List.Nodup
import Mathlib.Data.List.Perm.Subperm
import StyleMonitor.Proofs.Disk.Removal
import StyleMonitor.Proofs.Disk.Subtrees

/-!
# What may be left of a write that fails

A write makes the directories above its path that are missing, and a draft. What it does after that
to take the target out of the way is called its trace: nothing, or what stood beside the target is
gone, or the target stands there in its stead. The aftermath of a write is the trace, and the draft
where it could not be removed.
-/

namespace StyleMonitor

/-! ### Fresh names -/

namespace Decimal

theorem valueFrom_padded (width n : Nat) : valueFrom 0 (padded width n).toList = n := by
  have zeros : ∀ count rest, valueFrom 0 (List.replicate count '0' ++ rest) = valueFrom 0 rest := by
    intro count rest
    induction count with
    | zero => rfl
    | succ count ih => exact ih
  rw [padded, String.toList_append, String.toList_ofList, zeros, valueFrom_text]

end Decimal

namespace Session

theorem temporaryName_injective : Function.Injective temporaryName := by
  intro one two same
  have padded : (Decimal.padded 6 one).toList = (Decimal.padded 6 two).toList := by
    simpa [temporaryName] using congrArg String.toList same
  rw [← Decimal.valueFrom_padded 6 one, padded, Decimal.valueFrom_padded]

/-- No node has the name that is chosen for a temporary file. -/
theorem exists_freshName (tree : Tree) : ∃ n, freshName tree = temporaryName n ∧
    ∀ place, place.getLast? = some (temporaryName n) → tree.lookup place = none := by
  let taken (n : Nat) : Bool :=
    tree.nodes.any fun entry => entry.1.getLast? == some (temporaryName n)
  have free : ∀ n, taken n = false →
      ∀ place, place.getLast? = some (temporaryName n) → tree.lookup place = none := by
    intro n untaken place last
    by_contra stands
    have named : place ≠ [] := by
      rintro rfl
      cases last
    obtain ⟨entry, member, rfl⟩ := Tree.mem_of_lookup_ne_none named stands
    exact absurd (beq_iff_eq.mpr last) (List.any_eq_false.mp untaken entry member)
  cases found : (List.range tree.nodes.length).find? fun n => !taken n with
  | some n =>
    refine ⟨n, ?_, free n (by simpa using List.find?_some found)⟩
    rw [freshName, found, Option.getD_some]
  | none =>
    refine ⟨tree.nodes.length, ?_, free _ ?_⟩
    · rw [freshName, found, Option.getD_none]
    -- As many names as there are nodes are taken, so every node has one of them.
    by_contra all
    have each : ∀ n ∈ List.range (tree.nodes.length + 1), taken n = true := by
      intro n member
      rcases Nat.lt_succ_iff_lt_or_eq.mp (List.mem_range.mp member) with less | rfl
      · simpa using List.find?_eq_none.mp found n (List.mem_range.mpr less)
      · simpa using all
    have inside : (List.range (tree.nodes.length + 1)).map (fun n => some (temporaryName n)) ⊆
        tree.nodes.map fun entry => entry.1.getLast? := by
      intro name member
      obtain ⟨n, here, rfl⟩ := List.mem_map.mp member
      obtain ⟨entry, there, same⟩ := List.any_eq_true.mp (each n here)
      exact List.mem_map.mpr ⟨entry, there, beq_iff_eq.mp same⟩
    have once : ((List.range (tree.nodes.length + 1)).map fun n => some (temporaryName n)).Nodup :=
      List.Nodup.map (fun _ _ same => temporaryName_injective (Option.some.inj same))
        List.nodup_range
    have count := (List.subperm_of_subset once inside).length_le
    simp only [List.length_map, List.length_range] at count
    omega

end Session

namespace Disk

open Session (backupPath directoryOf temporaryName)

variable {disk made drafted later first : Disk} {path : String} {place draft sibling : Place}
  {node : Node} {n : Nat}

/-! ### Directories above a path -/

/-- Directories above a path are made, one after the other. -/
inductive Makes (path : String) (disk : Disk) : Disk → Prop where
  | refl : Makes path disk disk
  | step {made later : Disk} {above : String} (makes : Makes path disk made)
    (member : above ∈ Path.ancestors (directoryOf path))
    (h : made.makeDirectory above = .ok later) : Makes path disk later

/-- A disk on which nothing was changed, and nothing was added but directories that a path above
the path leads to. -/
structure Raises (path : String) (disk made : Disk) : Prop where
  sound : made.Sound
  current : made.current = disk.current
  kept : ∀ place node, disk.tree.lookup place = some node → made.tree.lookup place = some node
  added : ∀ place node, made.tree.lookup place = some node → disk.tree.lookup place = some node ∨
    disk.tree.lookup place = none ∧ node = .directory ∧
      ∃ above ∈ Path.ancestors (directoryOf path), made.leads above = some (place, true)

theorem Raises.makeDirectory {above : String} (raises : Raises path disk made)
    (member : above ∈ Path.ancestors (directoryOf path))
    (h : made.makeDirectory above = .ok later) : Raises path disk later := by
  obtain ⟨new, leads, missing, puts⟩ := makeDirectory_puts raises.sound h
  have grown : ∀ place, later.tree.lookup place = made.tree.lookup place ∨
      Node.IsLeaf (made.tree.lookup place) := by
    intro place
    rw [puts.lookup]
    split
    · next here => exact Or.inr (Or.inl (here ▸ missing))
    · exact Or.inl rfl
  refine ⟨raises.sound.of_puts puts (Or.inl missing) fun _ => raises.sound.parent leads,
    puts.current.trans raises.current, ?_, ?_⟩
  · intro place node stands
    rw [puts.lookup, if_neg ?_, raises.kept place node stands]
    rintro rfl
    cases missing.symm.trans (raises.kept place node stands)
  · intro place node stands
    rw [puts.lookup] at stands
    split at stands
    · next here =>
      cases stands
      subst here
      refine Or.inr ⟨?_, rfl, above, member, leads_grown puts.current grown leads⟩
      by_contra stood
      obtain ⟨node, stood⟩ := Option.ne_none_iff_exists'.mp stood
      cases missing.symm.trans (raises.kept place node stood)
    · rcases raises.added place node stands with old | ⟨none, directory, other, listed, leads⟩
      · exact Or.inl old
      · exact Or.inr ⟨none, directory, other, listed, leads_grown puts.current grown leads⟩

theorem Makes.raises (makes : Makes path disk made) (sound : disk.Sound) :
    Raises path disk made := by
  induction makes with
  | refl => exact ⟨sound, rfl, fun _ _ stands => stands, fun _ _ stands => Or.inl stands⟩
  | step _ member h ih => exact ih.makeDirectory member h

/-! ### Targets that are no links -/

/-- A path names no link. -/
def NamesNoLink (path : String) (disk : Disk) : Prop :=
  ∀ place, disk.leads path = some (place, true) →
    ∀ target, disk.tree.lookup place ≠ some (.link target)

/-- Where each directory that a `..` leads up from is there, no link comes to light at the path
when directories above it are made. -/
theorem Makes.namesNoLink (makes : Makes path disk made) (sound : disk.Sound)
    (upward : disk.Upward path) (unlinked : NamesNoLink path disk) : NamesNoLink path made := by
  suffices made.Upward path ∧ NamesNoLink path made from this.2
  induction makes with
  | refl => exact ⟨upward, unlinked⟩
  | step makes member h ih =>
    have beyond := (beyond_path_and_backup member (steps_ne_nil_of_makeDirectory h)).1
    obtain ⟨-, upward, -, missing⟩ :=
      makeDirectory_beyond (makes.raises sound).sound ih.1 beyond h
    refine ⟨upward, fun place leads target linked => ?_⟩
    cases (missing place true leads).symm.trans linked

/-- A link at the end of such a path need not be followed. -/
theorem NamesNoLink.spot (unlinked : NamesNoLink path disk) (sound : disk.Sound) (follow : Bool) :
    disk.spot follow path = disk.spot false path := by
  cases follow with
  | false => rfl
  | true =>
    by_cases usable : Usable path
    · rw [spot_of_usable usable, spot_of_usable usable, walk_follow]
      intro found target walked linked
      have spot := spot_ok_iff.mpr ⟨usable, walked⟩
      have stands := (sound.spot spot).node
      cases named : found.named with
      | true => exact unlinked found.place (named ▸ leads_of_spot spot) target (stands.trans linked)
      | false => cases linked.symm.trans ((sound.spot spot).unnamed named)
    · obtain ⟨failure, refused⟩ := spot_of_not_usable usable
      rw [refused, refused]

/-- What it leads to then is what it names; only a directory may be named with a slash behind. -/
theorem NamesNoLink.status_eq_ok_iff (unlinked : NamesNoLink path disk) (sound : disk.Sound) :
    disk.status path = .ok node ↔ ∃ place named, disk.leads path = some (place, named) ∧
      disk.tree.lookup place = some node ∧
        (node ≠ .directory → Path.endsInSlash path = false) := by
  -- With a slash behind only a directory is accepted.
  have leaf (own : Node) (other : own ≠ .directory) :
      (if Path.endsInSlash path then refuse .notADirectory else .ok own) = .ok node ↔
        some own = some node ∧ (node ≠ .directory → Path.endsInSlash path = false) := by
    split
    · next slash =>
      refine iff_of_false (fun refused => by cases refused) ?_
      rintro ⟨⟨⟩, no_slash⟩
      cases slash.symm.trans (no_slash other)
    · next no_slash =>
      constructor
      · rintro ⟨⟩
        exact ⟨rfl, fun _ => by simpa using no_slash⟩
      · rintro ⟨⟨⟩, -⟩
        rfl
  rw [status, unlinked.spot sound true]
  cases spot : disk.spot false path with
  | error failure =>
    refine iff_of_false (fun failed => by cases failed) ?_
    rintro ⟨place, named, leads, -⟩
    rw [Disk.leads, spot] at leads
    cases leads
  | ok found =>
    have whole : (∃ place named, disk.leads path = some (place, named) ∧
        disk.tree.lookup place = some node ∧ (node ≠ .directory → Path.endsInSlash path = false)) ↔
        found.node = some node ∧ (node ≠ .directory → Path.endsInSlash path = false) := by
      rw [leads_of_spot spot, ← (sound.spot spot).node]
      simp
    rw [whole]
    obtain ⟨there, stands, named⟩ := found
    cases stands with
    | none => exact iff_of_false (fun failed => by cases failed) fun both => by cases both.1
    | some own =>
      cases own with
      | directory =>
        constructor
        · rintro ⟨⟩
          exact ⟨rfl, fun other => absurd rfl other⟩
        · rintro ⟨⟨⟩, -⟩
          rfl
      | file content executable => exact leaf _ fun same => by cases same
      | link target => exact leaf _ fun same => by cases same

theorem NamesNoLink.exists_of_isThere (unlinked : NamesNoLink path disk) (sound : disk.Sound)
    (there : disk.isThere path = true) : ∃ node place named,
      disk.leads path = some (place, named) ∧ disk.tree.lookup place = some node ∧
        (node ≠ .directory → Path.endsInSlash path = false) := by
  rw [Disk.isThere] at there
  cases status : disk.status path with
  | error failure =>
    rw [status] at there
    cases there
  | ok node => exact ⟨node, (unlinked.status_eq_ok_iff sound).mp status⟩

/-! ### Drafts -/

/-- The path of a draft. -/
def draftPath (path : String) (disk : Disk) (n : Nat) : String :=
  Path.join (Path.join disk.currentPath (directoryOf path)) (temporaryName n)

theorem last_of_draftPath (ends : EndsIn (names (draftPath path disk n)) place) :
    place.getLast? = some (temporaryName n) := by
  obtain ⟨name, last, there, -⟩ := ends
  have isName := isName_temporaryName n
  rw [draftPath, names_join isName.isAbsolute, names_of_isName isName, List.getLast?_concat] at last
  rw [there, last]

/-- A disk with a draft, which has a name that no other node has. -/
structure Drafted (path : String) (made drafted : Disk) (n : Nat) (draft : Place) : Prop where
  sound : drafted.Sound
  current : drafted.current = made.current
  leads : made.leads (draftPath path made n) = some (draft, true)
  no_slash : Path.endsInSlash (draftPath path made n) = false
  fresh : ∀ place, place.getLast? = some (temporaryName n) → made.tree.lookup place = none
  file : ∃ content executable, drafted.tree.lookup draft = some (.file content executable)
  others : ∀ place, place ≠ draft → drafted.tree.lookup place = made.tree.lookup place

namespace Drafted

theorem last (drafts : Drafted path made drafted n draft) :
    draft.getLast? = some (temporaryName n) :=
  last_of_draftPath (endsIn_of_leads drafts.leads)

theorem missing (drafts : Drafted path made drafted n draft) : made.tree.lookup draft = none :=
  drafts.fresh draft drafts.last

theorem alike (drafts : Drafted path made drafted n draft) : made.Alike drafted := by
  obtain ⟨content, executable, file⟩ := drafts.file
  refine ⟨drafts.current, Tree.alike_of_lookup (Or.inl drafts.missing)
    (Node.isLeaf_file content executable) fun place => ?_⟩
  split
  · next here => rw [here, file]
  · next apart => exact drafts.others place apart

/-- What stood before the draft was made still stands. -/
theorem kept (drafts : Drafted path made drafted n draft)
    (stands : made.tree.lookup place = some node) : drafted.tree.lookup place = some node := by
  rw [drafts.others place ?_, stands]
  rintro rfl
  cases drafts.missing.symm.trans stands

/-- A place where nothing is now is no place of a draft. -/
theorem lookup_eq_none (drafts : Drafted path made drafted n draft)
    (missing : drafted.tree.lookup place = none) : made.tree.lookup place = none := by
  rw [← drafts.others place ?_, missing]
  rintro rfl
  obtain ⟨content, executable, file⟩ := drafts.file
  cases missing.symm.trans file

theorem namesNoLink (drafts : Drafted path made drafted n draft)
    (unlinked : NamesNoLink path made) : NamesNoLink path drafted := by
  intro place leads target linked
  rw [drafts.alike.leads] at leads
  refine unlinked place leads target ?_
  rw [← drafts.others place ?_, linked]
  rintro rfl
  obtain ⟨content, executable, file⟩ := drafts.file
  cases linked.symm.trans file

/-- The draft can take every place but that of a directory. -/
theorem exists_rename (drafts : Drafted path made drafted n draft)
    (leads : drafted.leads path = some (place, true)) (slash : Path.endsInSlash path = false)
    (other : drafted.tree.lookup place ≠ some .directory) :
    ∃ later, drafted.rename (draftPath path made n) path = .ok later := by
  obtain ⟨content, executable, file⟩ := drafts.file
  have from_source := spot_of_leads drafts.sound ((drafts.alike.leads _).trans drafts.leads)
  have to_target := spot_of_leads drafts.sound leads
  rw [file] at from_source
  by_cases own : draft = place
  · exact ⟨drafted, rename_ok_iff.mpr ⟨draft, place, _, _, from_source, to_target,
      fun _ => ⟨drafts.no_slash, slash⟩, Or.inl ⟨own, rfl⟩⟩⟩
  refine ⟨_, rename_ok_iff.mpr ⟨draft, place, _, _, from_source, to_target,
    fun _ => ⟨drafts.no_slash, slash⟩, Or.inr ⟨nofun, ?_, ?_, rfl⟩⟩⟩
  · rintro ⟨rest, rfl⟩
    have below : rest ≠ [] := by simpa using own
    exact other (drafts.sound.grounded.above below (by rw [file]; nofun))
  · cases stands : drafted.tree.lookup place with
    | none => rfl
    | some node =>
      cases node with
      | directory => exact absurd stands other
      | file content executable => rfl
      | link target => rfl

end Drafted

/-! ### Targets that may be taken out of the way -/

/-- A target that a draft cannot replace: it is a directory, or a call was refused and it is there.
A draft that has its name is taken for it. -/
def Exposed (refused : Prop) (path : String) (disk : Disk) (n : Nat) : Prop :=
  disk.isDirectory path = true ∨ refused ∧ (disk.isThere path = true ∨
    disk.leads path ≠ none ∧ disk.leads path = disk.leads (draftPath path disk n))

/-- A target is exposed when the draft does not take its place. -/
theorem Drafted.exposed {refused : Prop} (drafts : Drafted path made drafted n draft)
    (sound : made.Sound) (unlinked : NamesNoLink path made)
    (failed : refused ∨ ∃ failure, drafted.rename (draftPath path made n) path = .error failure)
    (there : drafted.isThere path = true) : Exposed refused path made n := by
  have unlinked' := drafts.namesNoLink unlinked
  obtain ⟨node, place, named, leads, stands, slash⟩ := unlinked'.exists_of_isThere drafts.sound there
  have before : made.leads path = some (place, named) := (drafts.alike.leads path).symm.trans leads
  by_cases directory : node = .directory
  · refine Or.inl ?_
    have apart : place ≠ draft := by
      rintro rfl
      obtain ⟨content, executable, file⟩ := drafts.file
      cases directory ▸ stands.symm.trans file
    have was : made.status path = .ok .directory :=
      (unlinked.status_eq_ok_iff sound).mpr ⟨place, named, before,
        by rw [← drafts.others place apart, stands, directory], fun other => absurd rfl other⟩
    rw [Disk.isDirectory, was]
  · have name : named = true := by
      by_contra unnamed
      have home := (drafts.sound.spot (spot_of_leads drafts.sound leads)).unnamed
        (by simpa using unnamed)
      exact directory (Option.some.inj (stands.symm.trans home))
    subst name
    rcases failed with refused | ⟨failure, failed⟩
    · refine Or.inr ⟨refused, ?_⟩
      by_cases own : place = draft
      · subst own
        exact Or.inr ⟨by rw [before]; nofun, before.trans drafts.leads.symm⟩
      · refine Or.inl ?_
        have was : made.status path = .ok node := (unlinked.status_eq_ok_iff sound).mpr
          ⟨place, true, before, by rw [← drafts.others place own, stands], slash⟩
        rw [Disk.isThere, was]
        rfl
    · obtain ⟨later, renamed⟩ := drafts.exists_rename leads (slash directory)
        (by rw [stands]; exact fun same => directory (Option.some.inj same))
      cases failed.symm.trans renamed

/-! ### Traces -/

/-- What a write that fails may have done to its target and beside it. -/
inductive Trace where
  | none
  /-- What stood beside the target is gone. -/
  | cleared (sibling : Place)
  /-- The target stands in its stead. -/
  | parked (target sibling : Place)

namespace Trace

/-- The place that has lost what stood there. -/
def lost : Trace → Option Place
  | none => .none
  | cleared sibling => some sibling
  | parked _ sibling => some sibling

/-- The place where something stands now that stood at a place. -/
def goes : Trace → Place → Place
  | parked target sibling => Tree.relocate target sibling
  | _ => id

/-- What stands at a place now. -/
def view : Trace → (Place → Option Node) → Place → Option Node
  | none, look => look
  | cleared sibling, look => fun place => if place = sibling then .none else look place
  | parked target sibling, look => shifted target sibling look

end Trace

/-- The place that a path names with the extension `bak`, with nothing below. -/
structure Beside (path : String) (disk : Disk) (sibling : Place) : Prop where
  leads : disk.leads (backupPath path) = some (sibling, true)
  barren : ∀ rest, rest ≠ [] → disk.tree.lookup (sibling ++ rest) = none

/-- The places of a trace are those of a target that is exposed, and the one beside it. -/
inductive Trace.Of (refused : Prop) (path : String) (disk : Disk) (n : Nat) : Trace → Prop where
  | none : Trace.Of refused path disk n .none
  | cleared {sibling : Place} (exposed : Exposed refused path disk n)
    (beside : Beside path disk sibling) : Trace.Of refused path disk n (.cleared sibling)
  | parked {target sibling : Place} (exposed : Exposed refused path disk n)
    (beside : Beside path disk sibling) (leads : disk.leads path = some (target, true))
    (inside : ¬ target <+: sibling) (outside : ¬ sibling <+: target) :
    Trace.Of refused path disk n (.parked target sibling)

variable {refused : Prop} {trace : Trace} {look : Place → Option Node}

theorem Trace.Of.view_goes (possible : trace.Of refused path made n)
    (stands : made.tree.lookup place = some node) (left : trace.lost ≠ some place) :
    trace.view look (trace.goes place) = look place := by
  cases possible with
  | none => rfl
  | cleared _ beside =>
    have apart : place ≠ _ := fun same => left (congrArg some same.symm)
    exact if_neg apart
  | parked _ beside _ inside outside =>
    simp only [Trace.goes, Tree.relocate, Trace.view]
    split
    · next own =>
      obtain ⟨rest, rfl⟩ := List.isPrefixOf_iff_prefix.mp own
      rw [List.drop_left, shifted_target]
    · next away =>
      refine shifted_of_apart (fun own => away (List.isPrefixOf_iff_prefix.mpr own)) ?_
      rintro ⟨rest, rfl⟩
      cases rest with
      | nil => exact left (by simp [Trace.lost])
      | cons name below =>
        cases (beside.barren (name :: below) (List.cons_ne_nil _ _)).symm.trans stands

theorem Trace.Of.exists_goes (possible : trace.Of refused path made n)
    (seen : trace.view look place = some node) :
    ∃ old, place = trace.goes old ∧ trace.lost ≠ some old ∧ look old = some node := by
  cases possible with
  | none => exact ⟨place, rfl, nofun, seen⟩
  | cleared _ beside =>
    simp only [Trace.view] at seen
    split at seen
    · cases seen
    · next apart => exact ⟨place, rfl, fun same => apart (Option.some.inj same).symm, seen⟩
  | @parked target sibling _ beside _ inside outside =>
    simp only [Trace.goes, Tree.relocate]
    by_cases there : sibling <+: place
    · obtain ⟨rest, rfl⟩ := there
      rw [Trace.view, shifted_target] at seen
      refine ⟨target ++ rest, ?_, ?_, seen⟩
      · have own : target.isPrefixOf (target ++ rest) = true :=
          List.isPrefixOf_iff_prefix.mpr (List.prefix_append _ _)
        rw [if_pos own, List.drop_left]
      · intro same
        exact inside ⟨rest, (Option.some.inj same).symm⟩
    by_cases own : target <+: place
    · rw [Trace.view, shifted_source own there] at seen
      cases seen
    · rw [Trace.view, shifted_of_apart own there] at seen
      refine ⟨place, ?_, ?_, seen⟩
      · rw [if_neg fun starts => own (List.isPrefixOf_iff_prefix.mp starts)]
      · intro same
        exact there (Option.some.inj same ▸ List.prefix_rfl)

/-- A target that is parked stays so only when a call was refused, or when its path or that of the
parked one led through it, and leads nowhere now. -/
def Stuck (refused : Prop) (path : String) (later : Disk) : Trace → Prop
  | .parked _ _ => refused ∨ later.leads path = none ∨ later.leads (backupPath path) = none
  | _ => True

/-- A draft, made where nothing stood, that its path does not lead to any more, or that was left
because a call was refused. -/
structure LeftDraft (refused : Prop) (path : String) (made later : Disk) (n : Nat)
    (old place : Place) (node : Node) : Prop where
  missing : made.tree.lookup old = none
  leads : made.leads (draftPath path made n) = some (old, true)
  file : ∃ content executable, node = .file content executable
  unreached : refused ∨ later.leads (draftPath path made n) ≠ some (place, true)

/-- How the files are after a write that failed: all that stood somewhere stands where it goes by
the trace, but for what the trace has lost, and nothing else is there but a draft. -/
structure Aftermath (refused : Prop) (path : String) (made later : Disk) (n : Nat)
    (trace : Trace) : Prop where
  possible : trace.Of refused path made n
  current : later.current = made.current
  stuck : Stuck refused path later trace
  kept : ∀ place node, made.tree.lookup place = some node → trace.lost ≠ some place →
    later.tree.lookup (trace.goes place) = some node
  added : ∀ place node, later.tree.lookup place = some node → ∃ old, place = trace.goes old ∧
    (made.tree.lookup old = some node ∧ trace.lost ≠ some old ∨
      LeftDraft refused path made later n old place node)

/-- Nothing was done. -/
theorem Aftermath.refl (refused : Prop) (path : String) (made : Disk) (n : Nat) :
    Aftermath refused path made made n .none where
  possible := .none
  current := rfl
  stuck := trivial
  kept _ _ stands _ := stands
  added place _ stands := ⟨place, rfl, Or.inl ⟨stands, nofun⟩⟩

/-- The files look like those of a disk with a draft, but for a trace. -/
structure Shows (refused : Prop) (path : String) (made drafted later : Disk) (n : Nat)
    (trace : Trace) : Prop where
  possible : trace.Of refused path made n
  current : later.current = made.current
  stuck : Stuck refused path later trace
  view : ∀ place, later.tree.lookup place = trace.view drafted.tree.lookup place

namespace Shows

theorem refl (drafts : Drafted path made drafted n draft) (refused : Prop) :
    Shows refused path made drafted drafted n .none :=
  ⟨.none, drafts.current, trivial, fun _ => rfl⟩

theorem kept (shows : Shows refused path made drafted later n trace)
    (drafts : Drafted path made drafted n draft) (stands : made.tree.lookup place = some node)
    (left : trace.lost ≠ some place) : later.tree.lookup (trace.goes place) = some node := by
  rw [shows.view, shows.possible.view_goes stands left, drafts.kept stands]

theorem added (shows : Shows refused path made drafted later n trace)
    (drafts : Drafted path made drafted n draft) (stands : later.tree.lookup place = some node) :
    ∃ old, place = trace.goes old ∧
      (made.tree.lookup old = some node ∧ trace.lost ≠ some old ∨
        old = draft ∧ ∃ content executable, node = .file content executable) := by
  rw [shows.view] at stands
  obtain ⟨old, goes, left, stood⟩ := shows.possible.exists_goes stands
  refine ⟨old, goes, ?_⟩
  by_cases own : old = draft
  · subst own
    obtain ⟨content, executable, file⟩ := drafts.file
    exact Or.inr ⟨rfl, content, executable, Option.some.inj (stood.symm.trans file)⟩
  · exact Or.inl ⟨(drafts.others old own).symm.trans stood, left⟩

end Shows

/-! ### Removing the draft -/

/-- What is removed is what the path names. -/
theorem exists_removed (h : disk.remove path = .ok later) : ∃ place,
    disk.leads path = some (place, true) ∧ disk.tree.lookup place ≠ none ∧
    later.current = disk.current ∧ ∀ elsewhere, later.tree.lookup elsewhere =
      if elsewhere = place then none else disk.tree.lookup elsewhere := by
  obtain ⟨place, node, named, spot, other, -, rfl⟩ := exists_of_remove h
  have walked := (spot_ok_iff.mp spot).2
  have name : named = true := by
    by_contra unnamed
    exact other (Option.some.inj (directory_of_unnamed walked (by simpa using unnamed)))
  subst name
  have stands : disk.tree.lookup place = some node := lookup_of_named walked rfl
  refine ⟨place, leads_of_spot spot, by rw [stands]; nofun, rfl, disk.tree.lookup_erase ?_⟩
  rintro rfl
  obtain ⟨name, -, last, -⟩ := walk_endsIn walked rfl
  cases last

/-- What leads nowhere leads nowhere when something is taken away. -/
theorem leads_of_erased (current : later.current = disk.current)
    (gone : ∀ elsewhere, later.tree.lookup elsewhere =
      if elsewhere = place then none else disk.tree.lookup elsewhere)
    (nowhere : disk.leads path = none) : later.leads path = none := by
  by_contra leads
  obtain ⟨found, leads⟩ := Option.ne_none_iff_exists'.mp leads
  have grown : ∀ elsewhere, disk.tree.lookup elsewhere = later.tree.lookup elsewhere ∨
      Node.IsLeaf (later.tree.lookup elsewhere) := by
    intro elsewhere
    rw [gone]
    split
    · exact Or.inr Node.isLeaf_none
    · exact Or.inl rfl
  cases nowhere.symm.trans (leads_grown current.symm grown leads)

theorem Stuck.of_erased (stuck : Stuck refused path disk trace)
    (current : later.current = disk.current)
    (gone : ∀ elsewhere, later.tree.lookup elsewhere =
      if elsewhere = place then none else disk.tree.lookup elsewhere) :
    Stuck refused path later trace := by
  cases trace with
  | parked target sibling =>
    exact Or.imp_right (Or.imp (leads_of_erased current gone) (leads_of_erased current gone)) stuck
  | none => trivial
  | cleared sibling => trivial

/-- When no call was refused and the target is no directory, nothing was changed at all. -/
theorem Aftermath.lookup_eq (aftermath : Aftermath refused path made later n trace)
    (spared : ¬ refused) (other : made.isDirectory path = false) (place : Place) :
    later.tree.lookup place = made.tree.lookup place := by
  have none : trace = .none := by
    have hidden : ¬ Exposed refused path made n := by
      rintro (directory | ⟨refused, -⟩)
      · cases directory.symm.trans other
      · exact spared refused
    cases aftermath.possible with
    | none => rfl
    | cleared exposed => exact absurd exposed hidden
    | parked exposed => exact absurd exposed hidden
  subst none
  have kept (place : Place) (node : Node) (stands : made.tree.lookup place = some node) :
      later.tree.lookup place = some node := aftermath.kept place node stands nofun
  cases now : later.tree.lookup place with
  | none =>
    cases was : made.tree.lookup place with
    | none => rfl
    | some node => cases now.symm.trans (kept place node was)
  | some node =>
    obtain ⟨old, rfl, ⟨stood, -⟩ | left⟩ := aftermath.added place node now
    · exact stood.symm
    -- Where a draft were left, all paths would lead where they led, and its own path to it.
    exfalso
    have grown : ∀ place, later.tree.lookup place = made.tree.lookup place ∨
        Node.IsLeaf (made.tree.lookup place) := by
      intro place
      cases was : made.tree.lookup place with
      | none => exact Or.inr Node.isLeaf_none
      | some node => exact Or.inl (kept place node was)
    exact left.unreached.elim spared fun apart =>
      apart (leads_grown aftermath.current grown left.leads)

end Disk

end StyleMonitor
