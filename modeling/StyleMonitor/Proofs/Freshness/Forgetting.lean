import StyleMonitor.Proofs.Disk.Written
import StyleMonitor.Proofs.Freshness.Recording

/-!
# Forgetting a pull

A key that was forgotten in a file stays forgotten: whatever the file and the parked one held before,
later look-ups find the table that was written, or none at all, and they change nothing. Only a
look-up whose first question is refused could take the file for missing and bring back a parked one.
-/

namespace StyleMonitor

open Disk Session

variable {disk : Disk} {volume later : Volume} {path key : String} {content : Bytes}

/-- The next call is not refused. -/
def Volume.Serves (volume : Volume) : Prop := volume.refusals.head?.join = none

instance (volume : Volume) : Decidable volume.Serves :=
  inferInstanceAs (Decidable (volume.refusals.head?.join = none))

namespace Session

theorem isThere_serves (serves : volume.Serves) (path : String) :
    isThere path volume = (.ok (volume.disk.isThere path), ⟨volume.disk, volume.refusals.tail⟩) := by
  obtain ⟨disk, refusals⟩ := volume
  cases refusals with
  | nil =>
    rw [isThere, bind_apply, attempt_apply, Disk.isThere, ask]
    simp only [call]
    cases disk.status path <;> rfl
  | cons refusal later =>
    cases refusal with
    | some cause => cases serves
    | none => exact isThere_spared path disk later

/-- A text that is read is what the path holds. -/
theorem readText_ensures_content (path : String) (disk : Disk) :
    Ensures (readText path) disk (fun text later => later = disk ∧
      (disk.file? path).bind Text.decode? = some text) (· = disk) := by
  refine .bind (.ask ?_ rfl)
  intro content read
  split
  · next text decodes => exact .pure ⟨rfl, by rw [Disk.file?, read]; exact decodes⟩
  · exact .throw rfl

/-- Where a write has succeeded there is nothing to put back. -/
theorem recoverBackup_of_written (written : Written path content volume.disk)
    (serves : volume.Serves) :
    ∃ later, recoverBackup path volume = (.ok (), later) ∧ later.disk = volume.disk := by
  rw [recoverBackup, bind_ok (isThere_serves serves path)]
  cases there : volume.disk.isThere path with
  | true => exact ⟨_, rfl, rfl⟩
  | false =>
    have stuck : ∀ after, volume.disk.rename (backupPath path) path ≠ .ok after := by
      rcases written.reads with file | ⟨-, stuck⟩
      · cases there.symm.trans (isThere_of_file? file)
      · exact stuck
    have rest : Ensures (do
        if ← isThere (backupPath path) then ignoring (rename (backupPath path) path))
        volume.disk (fun _ later => later = volume.disk) fun _ => False := by
      refine .bind (.isThere (fun _ => ?_) (.pure rfl))
      exact .ignoring (.change (fun after renamed => absurd renamed (stuck after)) rfl)
    obtain ⟨_, later, ran, same⟩ := rest.apply ⟨volume.disk, volume.refusals.tail⟩
    exact ⟨later, ran, same⟩

end Session

namespace Freshness

/-! ### What is read after a write -/

/-- The table that was written is read, or none; and everything stays as it is. -/
theorem readTable_of_written (written : Written path content volume.disk)
    (serves : volume.Serves) :
    ∃ table later, readTable path volume = (.ok table, later) ∧ later.disk = volume.disk ∧
      (table = tableIn (some content) ∨ table = []) := by
  obtain ⟨recovered, ran, same⟩ := recoverBackup_of_written written serves
  rw [readTable, bind_ok ran]
  refine @Ensures.apply _ _ (fun table disk => disk = volume.disk ∧
    (table = tableIn (some content) ∨ table = [])) recovered ?_
  refine .bind (.attempt ((readText_ensures_content path recovered.disk).mono ?_ ?_))
  · rintro text _ ⟨rfl, decodes⟩
    have there : volume.disk.file? path ≠ none := by
      intro missing
      rw [same, missing] at decodes
      cases decodes
    rw [same, written.file? there] at decodes
    exact .pure ⟨same, Or.inl (by rw [tableIn, decodes, Option.bind_some])⟩
  · rintro _ rfl failure
    exact .pure ⟨same, Or.inr rfl⟩

/-- Without a refusal a file that is there is read. -/
theorem readTable_of_file? (file : volume.disk.file? path = some content)
    (legible : (Freshness.file path).Legible volume) :
    ∃ later, readTable path volume = (.ok (tableIn (some content)), later) := by
  have there := isThere_of_file? file
  obtain ⟨refusals, granted⟩ := exists_letRead legible
  obtain ⟨left, same⟩ := readTable_indifferent path volume (readingCalls path volume.disk)
  have recovered : recoverBackup path (letRead path volume.disk refusals) =
      (.ok (), ⟨volume.disk, none :: refusals⟩) := by
    simp [recoverBackup, letRead, readingCalls, there, bind_apply, isThere_spared]
  obtain ⟨result, read, text⟩ := readText_spared path volume.disk refusals
  have own : readTable path (letRead path volume.disk refusals) =
      (.ok (tableIn (some content)), ⟨volume.disk, refusals⟩) := by
    rw [readTable, bind_ok recovered, bind_apply, attempt_apply, read, tableIn, ← file, Disk.file?,
      ← text]
    cases result <;> rfl
  rw [granted, own] at same
  exact ⟨_, Prod.ext (Prod.mk.inj same).1.symm rfl⟩

/-! ### Where the parked file is no directory -/

/-- A parked file is put back, where no directory is taken for it. -/
theorem recoverBackup_sound (sound : disk.Sound)
    (other : disk.isDirectory (backupPath path) = false) :
    Ensures (recoverBackup path) disk (fun _ => Disk.Sound) fun _ => False := by
  refine .bind (.isThere (fun _ => .pure sound) (.bind (.isThere (fun _ => ?_) (.pure sound))))
  exact .ignoring (.change (fun after renamed => sound.rename other renamed) sound)

theorem readTable_sound (sound : disk.Sound)
    (other : disk.isDirectory (backupPath path) = false) :
    Ensures (readTable path) disk (fun table later => table.Sound ∧ later.Sound) fun _ => False := by
  refine .bind ((recoverBackup_sound sound other).mono ?_ fun _ never => never)
  intro _ later sound
  refine .bind (.attempt ((readText_ensures fun failure => ?_).mono ?_ fun _ failed => failed))
  · exact .pure ⟨.nil, sound⟩
  · rintro text _ rfl
    exact .pure ⟨(PullTable.lookup_ofText? text "").1, sound⟩

/-- A change that succeeds has written the table that was read, changed. -/
theorem written_of_changeTable {change : PullTable → PullTable} (sound : volume.disk.Sound)
    (other : volume.disk.isDirectory (backupPath path) = false)
    (changes : changeTable path change volume = (.ok (), later)) :
    ∃ table read, readTable path volume = (.ok table, read) ∧ table.Sound ∧
      Written path (Text.encode (change table).text) later.disk := by
  obtain ⟨table, read, ran, own, sound⟩ := (readTable_sound sound other).apply volume
  rw [changeTable, bind_ok ran] at changes
  exact ⟨table, read, ran, own, (atomicWrite_written sound _ _).of_ok changes⟩

/-! ### Keys that are forgotten -/

/-- The table that was written to a file has not this key. -/
def Lacks (path key : String) (disk : Disk) : Prop :=
  ∃ table : PullTable, table.Sound ∧ table.lookup key = none ∧
    Written path (Text.encode table.text) disk

theorem lookup_tableIn_text {table : PullTable} (sound : table.Sound) (key : String) :
    (tableIn (some (Text.encode table.text))).lookup key = table.lookup key := by
  rw [(lookup_tableIn _ key).2, pullsIn_text sound]

/-- What is looked up in a file is in the table that is read. -/
theorem last?_of_readTable {table : PullTable} (ran : readTable path volume = (.ok table, later))
    (key : String) : (file path).last? key volume =
      (.ok ((table.lookup key).map fun millis => Instant.ofMillis millis), later) := by
  simp only [Freshness.last?, bind_ok ran]
  rfl

/-- A key that was forgotten is not found, and looking up changes nothing. -/
theorem Lacks.last? (lacks : Lacks path key volume.disk) (serves : volume.Serves)
    (other : String) : ∃ found later,
      (file path).last? other volume = (.ok found, later) ∧ later.disk = volume.disk ∧
        (other = key → found = none) := by
  obtain ⟨table, sound, missing, written⟩ := lacks
  obtain ⟨read, later, ran, same, either⟩ := readTable_of_written written serves
  refine ⟨_, later, last?_of_readTable ran other, same, ?_⟩
  rintro rfl
  rcases either with rfl | rfl
  · rw [lookup_tableIn_text sound, missing]
    rfl
  · rfl

theorem changeTable_of_forget {store : Freshness}
    (forgets : (file path).forget key volume = (.ok store, later)) :
    changeTable path (PullTable.erase key) volume = (.ok (), later) ∧ store = file path := by
  rw [forget, bind_apply] at forgets
  cases ran : changeTable path (PullTable.erase key) volume with
  | mk result after =>
    rw [ran] at forgets
    cases result with
    | error failure => cases forgets
    | ok =>
      cases forgets
      exact ⟨rfl, rfl⟩

/-- When forgetting has succeeded the key is forgotten. Of the other keys a look-up finds what one
before would have found, as long as there is a file to be read. -/
theorem lacks_of_forget {store : Freshness} (sound : volume.disk.Sound)
    (other : volume.disk.isDirectory (backupPath path) = false)
    (forgets : (file path).forget key volume = (.ok store, later)) :
    Lacks path key later.disk ∧
      ∀ one, one ≠ key → later.disk.file? path ≠ none → (file path).Legible later →
        ((file path).last? one later).1 = ((file path).last? one volume).1 := by
  obtain ⟨table, read, ran, own, written⟩ :=
    written_of_changeTable sound other (changeTable_of_forget forgets).1
  have erased := own.erase key
  constructor
  · exact ⟨_, erased, by rw [PullTable.lookup_erase, if_pos rfl], written⟩
  · intro one apart there legible
    obtain ⟨after, again⟩ := readTable_of_file? (written.file? there) legible
    rw [last?_of_readTable again, last?_of_readTable ran, lookup_tableIn_text erased,
      PullTable.lookup_erase, if_neg apart]

/-- Where the path is in order and the file is read, forgetting takes its key away, and no other. -/
theorem standing?_of_forget {store : Freshness} (tidy : (file path).Tidy volume.disk)
    (legible : (file path).Legible volume)
    (forgets : (file path).forget key volume = (.ok store, later)) :
    (file path).Tidy later.disk ∧ ∀ one, (file path).standing? later.disk one =
      if one = key then none else (file path).standing? volume.disk one := by
  obtain ⟨storable, tended⟩ := tidy
  obtain ⟨read, ran, tended', -⟩ := readTable_legible storable tended legible
  have changes := (changeTable_of_forget forgets).1
  rw [changeTable, bind_ok ran] at changes
  obtain ⟨tended', written⟩ := (atomicWrite_ensures storable tended' _).of_ok changes
  refine ⟨⟨storable, tended'⟩, fun one => ?_⟩
  have sound := (lookup_tableIn (volume.disk.held? path) key).1.erase key
  rw [standing?, held?, written, Option.some_or, pullsIn_text sound, standing?,
    ← (lookup_tableIn _ one).2]
  dsimp only
  rw [PullTable.lookup_erase]
  split <;> rfl

end Freshness

end StyleMonitor
