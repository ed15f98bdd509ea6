import StyleMonitor.Proofs.Disk.FailedWrites

/-!
# What a write that succeeds leaves

Wherever its path leads, and whichever of its calls are refused: after a write that succeeds the new
content is read at the path, or nothing is there and no parked file can be put in its place. Nothing
is there when the path led through the link that the file has replaced, or when the path is its own
backup, so that the file was taken away for what it replaced.
-/

namespace StyleMonitor

namespace Disk

open Session (backupPath temporaryName)

variable {disk made drafted first second third later : Disk} {path source target : String}
  {place draft old new : Place} {node : Node} {content : Bytes} {n : Nat}

/-! ### Where a path leads is what stands there -/

theorem lookup_of_spot (h : disk.spot false path = .ok ⟨place, some node, true⟩) :
    disk.tree.lookup place = some node :=
  lookup_of_named (spot_ok_iff.mp h).2 rfl

/-- Only a link at the end makes a difference to whether it is followed. -/
theorem spot_follow (unlinked : ∀ found target, disk.spot false path = .ok found →
    found.node ≠ some (.link target)) : disk.spot true path = disk.spot false path := by
  by_cases usable : Usable path
  · rw [spot_of_usable usable, spot_of_usable usable, walk_follow]
    intro found target walked
    exact unlinked found target (spot_ok_iff.mpr ⟨usable, walked⟩)
  · obtain ⟨failure, refused⟩ := spot_of_not_usable usable
    rw [refused, refused]

/-- Where no link stands it makes no difference. -/
theorem spot_of_unlinked {found : Spot} (asked : disk.spot false path = .ok found)
    (unlinked : ∀ target, found.node ≠ some (.link target)) : disk.spot true path = .ok found := by
  rw [← asked]
  refine spot_follow fun own target same => ?_
  cases asked.symm.trans same
  exact unlinked target

theorem isDirectory_of_spot {named : Bool}
    (h : disk.spot false path = .ok ⟨place, some .directory, named⟩) :
    disk.isDirectory path = true := by
  rw [isDirectory, status, spot_of_unlinked h (by simp)]
  rfl

/-! ### Renaming keeps a tree grounded -/

/-- What is moved with all below it stands in directories as before. -/
theorem grounded_shifted {tree moved : Tree} (grounded : tree.Grounded)
    (inside : ¬ old <+: new)
    (home : ∀ parent name, new = parent ++ [name] → tree.lookup parent = some .directory)
    (lookup : ∀ place, moved.lookup place = shifted old new tree.lookup place) :
    moved.Grounded := by
  intro place name stands
  rw [lookup] at stands ⊢
  by_cases there : new <+: place ++ [name]
  · rcases List.prefix_concat_iff.mp there with here | higher
    · have left : ¬ old <+: place := fun left => inside (here ▸ left.trans (List.prefix_append _ _))
      have away : ¬ new <+: place := by
        intro away
        have longer := away.length_le
        rw [here, List.length_append, List.length_singleton] at longer
        omega
      rw [shifted_of_apart left away]
      exact home place name here
    · obtain ⟨rest, rfl⟩ := higher
      rw [List.append_assoc, shifted_target, ← List.append_assoc] at stands
      rw [shifted_target]
      exact grounded _ name stands
  by_cases left : old <+: place ++ [name]
  · rw [shifted_source left there] at stands
    exact absurd rfl stands
  · rw [shifted_of_apart left there] at stands
    rw [shifted_of_apart (fun own => left (own.trans (List.prefix_append _ _)))
      (fun own => there (own.trans (List.prefix_append _ _)))]
    exact grounded place name stands

/-- A file or a link is renamed. -/
theorem Sound.rename (sound : first.Sound) (other : first.isDirectory source = false)
    (h : first.rename source target = .ok second) : second.Sound := by
  obtain ⟨old, new, node, leads, leads', stands, -, current,
    ⟨rfl, rfl⟩ | ⟨inside, outside, free, lookup⟩⟩ := exists_of_rename sound h
  · exact sound
  have solid : node ≠ .directory := by
    rintro rfl
    have spot := spot_of_leads sound leads
    rw [stands] at spot
    cases other.symm.trans (isDirectory_of_spot spot)
  refine ⟨grounded_shifted sound.grounded inside (sound.parent leads') lookup, ?_⟩
  have left : ¬ old <+: first.current := by
    intro above
    have home := directory_above sound.grounded sound.home above
    exact solid (Option.some.inj (stands.symm.trans home))
  have away : ¬ new <+: first.current := by
    intro above
    rw [directory_above sound.grounded sound.home above] at free
    cases node with
    | directory => exact solid rfl
    | file content executable => cases free
    | link target => cases free
  rw [current, lookup, shifted_of_apart left away, sound.home]

/-! ### The draft under its name -/

/-- Whatever has the name of the draft is a file with the new content. -/
def Bears (n : Nat) (content : Bytes) (tree : Tree) : Prop :=
  ∀ place node, place.getLast? = some (temporaryName n) → tree.lookup place = some node →
    ∃ executable, node = .file content executable

theorem Drafted.lookup_of_write (drafts : Drafted path made drafted n draft)
    (h : drafted.write (draftPath path made n) content = .ok later) :
    ∃ executable, later.tree.lookup draft = some (.file content executable) := by
  obtain ⟨old, was, file⟩ := drafts.file
  have leads : drafted.leads (draftPath path made n) = some (draft, true) :=
    (drafts.alike.leads _).trans drafts.leads
  obtain ⟨there, executable, leads', -, puts⟩ :=
    write_puts drafts.sound (plain_of_leads leads (Or.inr ⟨old, was, file⟩)) h
  cases leads.symm.trans leads'
  exact ⟨executable, by rw [puts.lookup, if_pos rfl]⟩

theorem Drafted.bears {executable : Bool} (drafts : Drafted path made drafted n draft)
    (file : drafted.tree.lookup draft = some (.file content executable)) :
    Bears n content drafted.tree := by
  intro place node last stands
  by_cases own : place = draft
  · rw [own, file] at stands
    exact ⟨executable, (Option.some.inj stands).symm⟩
  · rw [drafts.others place own, drafts.fresh place last] at stands
    cases stands

theorem Cleaned.bears (cleaned : Cleaned path drafted first)
    (bears : Bears n content drafted.tree) : Bears n content first.tree :=
  fun place node last stands => bears place node last (cleaned.lookup_of_some stands)

/-- What is moved to a place with another name does not get that of the draft. -/
theorem Bears.shifted {tree moved : Tree} (bears : Bears n content tree)
    (other : new.getLast? ≠ some (temporaryName n))
    (lookup : ∀ place, moved.lookup place = shifted old new tree.lookup place) :
    Bears n content moved := by
  intro place node last stands
  rw [lookup] at stands
  by_cases there : new <+: place
  · obtain ⟨rest, rfl⟩ := there
    rw [shifted_target] at stands
    cases rest using List.reverseRecOn with
    | nil => exact absurd (by simpa using last) other
    | append_singleton front name =>
      refine bears _ node ?_ stands
      rw [← List.append_assoc, List.getLast?_concat] at last ⊢
      exact last
  by_cases left : old <+: place
  · rw [shifted_source left there] at stands
    cases stands
  · rw [shifted_of_apart left there] at stands
    exact bears place node last stands

theorem getLast?_of_leads_backup {found : Place} (leads : disk.leads path = some (found, true))
    (leads' : disk.leads (backupPath path) = some (place, true)) :
    place.getLast? ≠ some (temporaryName n) := by
  intro last
  obtain ⟨name, own, -⟩ := fileName?_of_leads leads
  obtain ⟨other, own', last'⟩ := fileName?_of_leads leads'
  rw [fileName?_backup own, Option.some.injEq] at own'
  rw [last', ← own', Option.some.injEq] at last
  exact temporaryName_ne_backup n _ last.symm

/-! ### Where the draft has taken its place -/

/-- What is known of a path when a write has succeeded. -/
inductive Written (path : String) (content : Bytes) (disk : Disk) : Prop where
  /-- The file stands where the path leads. -/
  | there {place : Place} {executable : Bool} (leads : disk.leads path = some (place, true))
    (file : disk.tree.lookup place = some (.file content executable))
    (no_slash : Path.endsInSlash path = false)
  /-- The path went through the link that the file has replaced. -/
  | astray (nowhere : disk.leads path = none)
  /-- The file was taken for the parked one, and taken away. -/
  | bare {place : Place} (leads : disk.leads path = some (place, true))
    (missing : disk.tree.lookup place = none)
    (unparked : ∀ beside, disk.leads (backupPath path) = some (beside, true) →
      disk.tree.lookup beside = none)

/-- A draft that is renamed takes the place of what stands where the path leads. -/
theorem written_of_rename (grounded : first.tree.Grounded) (bears : Bears n content first.tree)
    (h : first.rename (draftPath path made n) path = .ok second) : Written path content second := by
  obtain ⟨old, new, node, there, from_source, to_target, slash, moved⟩ := rename_ok_iff.mp h
  have stands := lookup_of_spot from_source
  have leads := leads_of_spot to_target
  have last := last_of_draftPath (endsIn_of_leads (leads_of_spot from_source))
  obtain ⟨executable, rfl⟩ := bears old node last stands
  have no_slash := (slash nofun).2
  rcases moved with ⟨rfl, rfl⟩ | ⟨-, outside, free, same⟩
  · exact .there leads stands no_slash
  have apart : old ≠ new := fun same => outside (same ▸ List.prefix_rfl)
  have was : first.tree.lookup new = there := lookup_of_named (spot_ok_iff.mp to_target).2 rfl
  have gives : first.tree.lookup new ≠ some .directory := by
    intro home
    rw [← was, home] at free
    cases free
  have file : Node.IsLeaf (first.tree.lookup old) := Or.inr ⟨content, executable, stands⟩
  have current : second.current = first.current := by rw [same]
  have lookup : ∀ place, second.tree.lookup place =
      if place = new then some (.file content executable)
      else if place = old then none else first.tree.lookup place := by
    intro place
    rw [same, Tree.lookup_erase_move grounded file gives apart, stands]
  have altered : first.tree.Altered second.tree := by
    intro place
    rw [lookup]
    split
    · exact Or.inr (Or.inr (Node.isLeaf_file content executable))
    split
    · exact Or.inr (Or.inr Node.isLeaf_none)
    · exact Or.inl rfl
  rcases leads_altered current altered leads with same | ⟨nowhere, -⟩
  · exact .there same (by rw [lookup, if_pos rfl]) no_slash
  · exact .astray nowhere

/-- What is beside the path is taken away. -/
theorem Written.remove_backup (written : Written path content first)
    (h : first.remove (backupPath path) = .ok second) : Written path content second := by
  obtain ⟨sibling, beside, stood, current, gone⟩ := exists_removed h
  have altered := Tree.altered_of_erased gone
  cases written with
  | @there place executable leads file no_slash =>
    rcases leads_altered current altered leads with same | ⟨nowhere, -⟩
    · by_cases own : place = sibling
      · refine .bare same (by rw [gone, if_pos own]) fun other leads' => ?_
        cases leads_eq_of_altered current altered beside leads'
        rw [gone, if_pos rfl]
      · exact .there same (by rw [gone, if_neg own, file]) no_slash
    · exact .astray nowhere
  | astray nowhere => exact .astray (leads_of_erased current gone nowhere)
  | bare leads missing unparked => exact absurd (unparked sibling beside) stood

/-! ### What is read then -/

/-- What can be read is there. -/
theorem isThere_of_file? (file : disk.file? path = some content) : disk.isThere path = true := by
  rw [isThere]
  cases status : disk.status path with
  | ok node => rfl
  | error failure =>
    rw [file?, read, status] at file
    cases file

/-- The content is read, or nothing is there and nothing can be put there. -/
theorem Written.reads (written : Written path content disk) :
    disk.file? path = some content ∨
      disk.isThere path = false ∧ ∀ later, disk.rename (backupPath path) path ≠ .ok later := by
  cases written with
  | @there place executable leads file no_slash =>
    have spot := spot_of_leads_named leads
    rw [file] at spot
    have status : disk.status path = .ok (.file content executable) := by
      rw [status, spot_of_unlinked spot (by simp)]
      simp only [bind, Except.bind, no_slash]
      rfl
    refine Or.inl ?_
    rw [file?, read, status]
    rfl
  | astray nowhere =>
    have spot : ∃ failure, disk.spot false path = .error failure := by
      cases spot : disk.spot false path with
      | error failure => exact ⟨failure, rfl⟩
      | ok found => cases nowhere.symm.trans (leads_of_spot spot)
    obtain ⟨failure, spot⟩ := spot
    refine Or.inr ⟨?_, fun later renamed => ?_⟩
    · rw [isThere, status, spot_follow (by simp [spot]), spot]
      rfl
    · obtain ⟨old, new, node, there, -, to_target, -⟩ := rename_ok_iff.mp renamed
      cases spot.symm.trans to_target
  | bare leads missing unparked =>
    have spot := spot_of_leads_named leads
    rw [missing] at spot
    refine Or.inr ⟨?_, fun later renamed => ?_⟩
    · rw [isThere, status, spot_of_unlinked spot (by simp)]
      rfl
    · obtain ⟨old, new, node, there, from_source, -⟩ := rename_ok_iff.mp renamed
      cases (unparked old (leads_of_spot from_source)).symm.trans (lookup_of_spot from_source)

/-- Where anything is read, it is the new content. -/
theorem Written.file? (written : Written path content disk) (there : disk.file? path ≠ none) :
    disk.file? path = some content := by
  rcases written.reads with file | ⟨missing, -⟩
  · exact file
  · obtain ⟨other, file⟩ := Option.ne_none_iff_exists'.mp there
    cases missing.symm.trans (isThere_of_file? file)

end Disk

namespace Session

open Disk

variable {disk made drafted : Disk} {path : String} {draft : Place} {content : Bytes} {n : Nat}

/-! ### The write -/

theorem replaceParked_written (drafts : Drafted path made drafted n draft)
    (bears : Bears n content drafted.tree) :
    Ensures (replaceParked (draftPath path made n) path) drafted (fun _ => Written path content)
      (fun _ => True) := by
  have cleared : Ensures (ignoring (remove (backupPath path))) drafted
      (fun _ => Cleaned path drafted) (fun _ => False) :=
    .ignoring (.change (fun _ removed => .of_remove drafts.sound removed) (.refl drafts.sound))
  refine .bind (cleared.mono ?_ fun _ never => never.elim)
  intro _ first cleaned
  refine .bind (.change ?_ trivial)
  intro second renamed
  -- Whatever stood at the path is beside it now, a directory with all below it.
  have known : second.tree.Grounded ∧ Bears n content second.tree := by
    have bears := cleaned.bears bears
    obtain ⟨old, new, node, leads, leads', -, -, -, ⟨-, rfl⟩ | ⟨inside, -, -, lookup⟩⟩ :=
      exists_of_rename cleaned.sound renamed
    · exact ⟨cleaned.sound.grounded, bears⟩
    · exact ⟨grounded_shifted cleaned.sound.grounded inside (cleaned.sound.parent leads') lookup,
        bears.shifted (getLast?_of_leads_backup leads leads') lookup⟩
  refine .bind (.attempt (.change ?_ fun failure => ?_))
  · intro third placed
    have written : Written path content third := written_of_rename known.1 known.2 placed
    exact .ignoring (.change (fun _ removed => written.remove_backup removed) written)
  · exact .bind (.ignoring (.change (fun _ _ => .throw trivial) (.throw trivial)))

theorem settle_written (drafts : Drafted path made drafted n draft)
    (bears : Bears n content drafted.tree) :
    Ensures (settle (draftPath path made n) path) drafted (fun _ => Written path content)
      (fun _ => True) := by
  refine .bind (.attempt (.change (fun later renamed => .pure ?_) fun failure => ?_))
  · exact written_of_rename drafts.sound.grounded bears renamed
  · exact .bind (.isThere (fun _ => replaceParked_written drafts bears) (.throw trivial))

/-- What a write leaves that succeeds, whichever of its calls are refused. -/
theorem atomicWrite_written (sound : disk.Sound) (path : String) (content : Bytes) :
    Ensures (atomicWrite path content) disk (fun _ => Written path content) (fun _ => True) := by
  have makes : Ensures (makeDirectories (directoryOf path)) disk (fun _ => Makes path disk)
      (Makes path disk) :=
    makeDirectories_ensures (fun above member _ _ makes made => makes.step member made) .refl
  refine .bind (makes.mono ?_ fun _ _ => trivial)
  intro _ made makes
  refine .bind ((makeTemporary_drafted (makes.raises sound).sound).ensures.mono ?_ fun _ _ => trivial)
  rintro temporary begun ⟨n, draft, same, drafts⟩
  rw [same]
  have finish : Ensures (do
      write (draftPath path made n) content
      sync
      settle (draftPath path made n) path) begun (fun _ => Written path content)
      (fun _ => True) := by
    refine .bind (.change (fun filled written => ?_) trivial)
    obtain ⟨executable, file⟩ := drafts.lookup_of_write written
    have drafts := drafts.write written
    refine .bind (.change ?_ trivial)
    rintro _ ⟨⟩
    exact settle_written drafts (drafts.bears file)
  refine .bind (.attempt (finish.mono (fun _ _ written => .pure written) fun _ _ failure => ?_))
  exact .bind (.ignoring (.change (fun _ _ => .throw trivial) (.throw trivial)))

end Session

end StyleMonitor
