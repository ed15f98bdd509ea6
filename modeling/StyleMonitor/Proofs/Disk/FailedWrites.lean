import StyleMonitor.Proofs.Disk.Aftermath

/-!
# What a write that fails leaves

Whichever of its calls are refused, a write that fails has made directories that were missing. Then
it may have taken away what stood beside the target under the extension `bak`, or parked the target
there, with all below it; and its draft may be left. Nothing else is lost, nothing is changed, and
nothing else is new.
-/

namespace StyleMonitor

namespace Disk

open Session (backupPath directoryOf temporaryName)

variable {disk made drafted later first second third : Disk} {path : String}
  {place draft target sibling : Place} {node : Node} {found : Place × Bool} {n : Nat}
  {refused : Prop}

/-! ### A draft is written -/

theorem drafted_of_create (sound : made.Sound)
    (h : made.create (Path.join (Path.join made.currentPath (directoryOf path))
      (Session.freshName made.tree)) = .ok drafted) :
    ∃ n draft, Path.join (Path.join made.currentPath (directoryOf path))
      (Session.freshName made.tree) = draftPath path made n ∧
        Drafted path made drafted n draft := by
  obtain ⟨n, named, fresh⟩ := Session.exists_freshName made.tree
  obtain ⟨draft, leads, missing, no_slash, puts⟩ := create_puts sound h
  have same : Path.join (Path.join made.currentPath (directoryOf path))
      (Session.freshName made.tree) = draftPath path made n := by rw [named, draftPath]
  rw [same] at leads no_slash
  refine ⟨n, draft, same, ?_, puts.current, leads, no_slash, fresh, ⟨[], false, ?_⟩, ?_⟩
  · exact sound.of_puts puts (Or.inl missing) fun _ => sound.parent leads
  · rw [puts.lookup, if_pos rfl]
  · intro place apart
    rw [puts.lookup, if_neg apart]

theorem Drafted.write {content : Bytes} (drafts : Drafted path made drafted n draft)
    (h : drafted.write (draftPath path made n) content = .ok later) :
    Drafted path made later n draft := by
  obtain ⟨old, was, file⟩ := drafts.file
  have leads : drafted.leads (draftPath path made n) = some (draft, true) :=
    (drafts.alike.leads _).trans drafts.leads
  have leaf : Node.IsLeaf (drafted.tree.lookup draft) := Or.inr ⟨old, was, file⟩
  obtain ⟨there, executable, leads', -, puts⟩ :=
    write_puts drafts.sound (plain_of_leads leads leaf) h
  cases leads.symm.trans leads'
  refine ⟨?_, puts.current.trans drafts.current, drafts.leads, drafts.no_slash, drafts.fresh,
    ⟨content, executable, ?_⟩, ?_⟩
  · exact drafts.sound.of_puts puts leaf fun _ => drafts.sound.parent leads
  · rw [puts.lookup, if_pos rfl]
  · intro place apart
    rw [puts.lookup, if_neg apart, drafts.others place apart]

/-! ### What is beside the target is taken away -/

/-- A disk on which what stood beside the target may have been removed. -/
structure Cleaned (path : String) (drafted first : Disk) : Prop where
  sound : first.Sound
  current : first.current = drafted.current
  either : first = drafted ∨ ∃ sibling, Beside path drafted sibling ∧
    ∀ place, first.tree.lookup place = if place = sibling then none else drafted.tree.lookup place

namespace Cleaned

theorem refl (sound : drafted.Sound) : Cleaned path drafted drafted where
  sound := sound
  current := rfl
  either := Or.inl rfl

theorem of_remove (sound : drafted.Sound) (h : drafted.remove (backupPath path) = .ok first) :
    Cleaned path drafted first := by
  have sound' := sound.remove h
  obtain ⟨⟨sibling, there, named⟩, node, removable, rfl⟩ := removable_of_remove sound h
  obtain rfl : named = true := removable.named
  have stands : drafted.tree.lookup sibling = some node :=
    (sound.spot removable.leads).node.trans removable.stands
  refine ⟨sound', rfl, Or.inr ⟨sibling, ⟨leads_of_spot removable.leads, ?_⟩, ?_⟩⟩
  · intro rest below
    refine sound.grounded.barren ?_ below
    rw [stands]
    exact fun same => removable.other (Option.some.inj same)
  · exact drafted.tree.lookup_erase (sound.ne_nil removable.leads)

theorem altered (cleaned : Cleaned path drafted first) : drafted.tree.Altered first.tree := by
  rcases cleaned.either with rfl | ⟨sibling, -, gone⟩
  · exact fun _ => Or.inl rfl
  · exact Tree.altered_of_erased gone

theorem lookup_of_ne (cleaned : Cleaned path drafted first)
    (apart : drafted.leads (backupPath path) ≠ some (place, true)) :
    first.tree.lookup place = drafted.tree.lookup place := by
  rcases cleaned.either with rfl | ⟨sibling, beside, gone⟩
  · rfl
  · rw [gone, if_neg]
    rintro rfl
    exact apart beside.leads

/-- What stands now stood before. -/
theorem lookup_of_some (cleaned : Cleaned path drafted first)
    (stands : first.tree.lookup place = some node) : drafted.tree.lookup place = some node := by
  rcases cleaned.either with rfl | ⟨sibling, -, gone⟩
  · exact stands
  · rw [gone] at stands
    split at stands
    · cases stands
    · exact stands

/-- The path of a parked file leads where it led. -/
theorem leads_backup (cleaned : Cleaned path drafted first)
    (leads : first.leads (backupPath path) = some (place, true)) :
    drafted.leads (backupPath path) = some (place, true) := by
  rcases cleaned.either with rfl | ⟨sibling, beside, gone⟩
  · exact leads
  · rw [beside.leads, leads_eq_of_altered cleaned.current cleaned.altered beside.leads leads]

theorem namesNoLink (cleaned : Cleaned path drafted first) (unlinked : NamesNoLink path drafted)
    (leads : drafted.leads path = some found) : NamesNoLink path first := by
  intro place leads' target linked
  have same := leads_eq_of_altered cleaned.current cleaned.altered leads leads'
  exact unlinked place (leads.trans (congrArg some same.symm)) target
    (cleaned.lookup_of_some linked)

theorem shows (cleaned : Cleaned path drafted first) (drafts : Drafted path made drafted n draft)
    (exposed : Exposed refused path made n) :
    ∃ trace, Shows refused path made drafted first n trace := by
  rcases cleaned.either with rfl | ⟨sibling, beside, gone⟩
  · exact ⟨.none, .refl drafts refused⟩
  · refine ⟨.cleared sibling, .cleared exposed ⟨?_, ?_⟩, cleaned.current.trans drafts.current,
      trivial, gone⟩
    · exact (drafts.alike.leads _).symm.trans beside.leads
    · exact fun rest below => drafts.lookup_eq_none (beside.barren rest below)

end Cleaned

/-! ### The target is parked and put back -/

namespace Parks

section

variable (parks : Parks first second path (backupPath path) target sibling)
  (cleaned : Cleaned path drafted first)
include parks cleaned

/-- Where something is parked, only the sibling can be gone. -/
theorem lookup_drafted (apart : place ≠ sibling) :
    first.tree.lookup place = drafted.tree.lookup place := by
  refine cleaned.lookup_of_ne fun other => apart ?_
  rw [cleaned.leads_backup parks.to_target] at other
  exact (congrArg Prod.fst (Option.some.inj other)).symm

variable (drafts : Drafted path made drafted n draft)
include drafts

theorem beside : Beside path made sibling where
  leads := (drafts.alike.leads _).symm.trans (cleaned.leads_backup parks.to_target)
  barren rest below := by
    refine drafts.lookup_eq_none ?_
    rw [← parks.lookup_drafted cleaned (by simpa using below), parks.barren rest below]

variable (exposed : Exposed refused path made n)
include exposed

/-- The target stays parked when it is not put back. -/
theorem shows (leads : drafted.leads path = some found)
    (failed : refused ∨ ∃ failure, second.rename (backupPath path) path = .error failure) :
    ∃ trace, Shows refused path made drafted second n trace := by
  have from_source : made.leads path = some (target, true) := by
    rw [← drafts.alike.leads, leads,
      leads_eq_of_altered cleaned.current cleaned.altered leads parks.from_source]
  refine ⟨.parked target sibling, .parked exposed (parks.beside cleaned drafts) from_source
    parks.inside parks.outside, parks.current.trans (cleaned.current.trans drafts.current), ?_, ?_⟩
  · refine failed.imp_right ?_
    rintro ⟨failure, failed⟩
    by_contra! both
    obtain ⟨one, leads⟩ := Option.ne_none_iff_exists'.mp both.1
    obtain ⟨two, leads'⟩ := Option.ne_none_iff_exists'.mp both.2
    obtain ⟨third, renamed⟩ := parks.exists_back leads leads'
    cases failed.symm.trans renamed
  · intro place
    rw [parks.lookup, Trace.view]
    by_cases there : sibling <+: place
    · obtain ⟨rest, rfl⟩ := there
      rw [shifted_target, shifted_target]
      refine parks.lookup_drafted cleaned fun same => ?_
      exact parks.inside ⟨rest, same⟩
    by_cases own : target <+: place
    · rw [shifted_source own there, shifted_source own there]
    · rw [shifted_of_apart own there, shifted_of_apart own there]
      refine parks.lookup_drafted cleaned fun same => ?_
      exact there (same ▸ List.prefix_rfl)

end

end Parks

end Disk

namespace Session

open Disk

variable {disk made drafted : Disk} {path : String} {draft : Place} {found : Place × Bool} {n : Nat}
  {refused : Prop}

/-! ### The write -/

theorem makeTemporary_drafted (sound : made.Sound) :
    EnsuresUnder refused (makeTemporary (directoryOf path)) made
      (fun temporary drafted => ∃ n draft, temporary = draftPath path made n ∧
        Drafted path made drafted n draft)
      (· = made) := by
  refine .of_ensures (.call _) (.call ?_ rfl)
  intro temporary later h
  dsimp only at h
  cases created : made.create (Path.join (Path.join made.currentPath (directoryOf path))
      (freshName made.tree)) with
  | error failure =>
    rw [created] at h
    cases h
  | ok drafted =>
    rw [created] at h
    obtain ⟨rfl, rfl⟩ := Prod.mk.inj (Except.ok.inj h)
    exact drafted_of_create sound created

end Session

end StyleMonitor
