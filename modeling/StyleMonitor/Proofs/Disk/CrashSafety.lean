import StyleMonitor.Proofs.Disk.AtomicWrite

/-!
# Stops and recovery

A write may be stopped between any two of its calls, and any of them may be refused. The path then
holds its old content or the new one, in its own file or in the parked one, and putting the parked
file back gives the path a file with that content.
-/

namespace StyleMonitor.Session

open Disk

variable {α : Type} {disk left : Disk} {path : String}

/-- What a session leaves when the program is stopped after so many calls as `before` has entries,
some of which may have been refused. All calls after them come to nothing. -/
def StopsWith (session : Session α) (disk : Disk) (before : List (Option Cause)) (left : Disk) :
    Prop :=
  ∃ (later : List Cause) (unused : List (Option Cause)), unused ≠ [] ∧
    (session ⟨disk, before ++ later.map some⟩).2 = ⟨left, unused⟩

/-- What holds of all that a session may leave holds when it is stopped. -/
theorem Ensures.stopsWith {session : Session α} {good : α → Disk → Prop} {bad : Disk → Prop}
    (ensures : Ensures session disk good bad) {before : List (Option Cause)}
    (stops : StopsWith session disk before left) : (∃ answer, good answer left) ∨ bad left := by
  obtain ⟨later, unused, -, ran⟩ := stops
  have h := ensures (before ++ later.map some)
  split at h
  · next answer volume equal =>
    rw [equal] at ran
    cases ran
    exact Or.inl ⟨answer, h⟩
  · next failure volume equal =>
    rw [equal] at ran
    cases ran
    exact Or.inr h

/-! ### Recovery -/

/-- Where a file is at the path, or none is parked, recovery changes nothing. -/
theorem recoverBackup_idle (idle : disk.isThere path = true ∨ disk.isThere (backupPath path) = false)
    (refusals : List (Option Cause)) :
    (recoverBackup path ⟨disk, none :: none :: refusals⟩).2.disk = disk := by
  cases own : disk.isThere path with
  | true => simp [recoverBackup, bind_apply, isThere_spared, own]
  | false =>
    have none : disk.isThere (backupPath path) = false := by simpa [own] using idle
    simp [recoverBackup, bind_apply, isThere_spared, own, none]

/-- Where only the parked file is there, recovery renames it. -/
theorem recoverBackup_moves (missing : disk.isThere path = false)
    (parked : disk.isThere (backupPath path) = true) (refusals : List (Option Cause)) :
    (recoverBackup path ⟨disk, none :: none :: refusals⟩).2 =
      (rename (backupPath path) path ⟨disk, refusals⟩).2 := by
  simp [recoverBackup, bind_apply, isThere_spared, missing, parked]

/-- A rename that fails changes nothing. -/
theorem rename_cases (source target : String) (disk : Disk) (refusals : List (Option Cause)) :
    (∃ after, disk.rename source target = .ok after ∧
      (rename source target ⟨disk, refusals⟩).2.disk = after) ∨
    ∃ failure, (rename source target ⟨disk, refusals⟩).1 = .error failure ∧
      (rename source target ⟨disk, refusals⟩).2.disk = disk := by
  unfold rename change call
  split
  · exact Or.inr ⟨_, rfl, rfl⟩
  · cases renamed : disk.rename source target with
    | ok after => exact Or.inl ⟨after, rfl, by simp [Except.map, renamed]⟩
    | error failure => exact Or.inr ⟨failure, by simp [Except.map, renamed]⟩

/-- Putting the parked file back changes nothing of what a path holds. Unless the system refuses to
rename the parked file, it is the path's own file that holds it then. -/
theorem recoverBackup_restores {assured : Prop} (storable : Storable path)
    (ready : Ready assured path disk) (refusals : List (Option Cause)) :
    (recoverBackup path ⟨disk, none :: none :: refusals⟩).2.disk.held? path = disk.held? path ∧
      ((∀ failure, (rename (backupPath path) path ⟨disk, refusals⟩).1 ≠ .error failure) →
        (recoverBackup path ⟨disk, none :: none :: refusals⟩).2.disk.file? path =
          disk.held? path) := by
  obtain ⟨sound, -, plain, plainBackup, -⟩ := ready
  have own := isThere_eq sound plain
  have parked := isThere_eq sound plainBackup
  cases file : disk.file? path with
  | some content =>
    rw [file, Option.isSome_some] at own
    rw [recoverBackup_idle (Or.inl own)]
    exact ⟨rfl, fun _ => by rw [held?, file, Option.some_or]⟩
  | none =>
    rw [file, Option.isSome_none] at own
    cases backup : disk.file? (backupPath path) with
    | none =>
      rw [backup, Option.isSome_none] at parked
      rw [recoverBackup_idle (Or.inr parked)]
      exact ⟨rfl, fun _ => by rw [held?, file, backup, Option.or_none]⟩
    | some content =>
      rw [backup, Option.isSome_some] at parked
      have held : disk.held? path = some content := by rw [held?, file, backup, Option.none_or]
      rw [recoverBackup_moves own parked, held]
      rcases rename_cases (backupPath path) path disk refusals with
        ⟨after, renamed, left⟩ | ⟨failure, failed, left⟩
      · obtain ⟨moved, renames⟩ :=
          rename_renames sound plainBackup plain (storable.apart disk).symm renamed
        have same := backup.symm.trans renames.was
        cases same
        rw [left]
        exact ⟨by rw [held?, renames.file, Option.some_or], fun _ => renames.file⟩
      · rw [left]
        exact ⟨held, fun done => absurd failed (done failure)⟩

/-! ### Writes -/

/-- A write gives a path its new content or fails and leaves it what it held, whichever of its
calls are refused. Stopped between two calls, it leaves the path what it held or its new content.
And recovery makes that the content of the path's own file, unless the rename of the parked file
fails; then the path goes on holding it. -/
theorem atomicWrite_crash_safe {disk : Disk} {path : String}
    (extension : Path.extension? path ≠ some "bak") (sound : disk.Sound)
    (plain : disk.Plain path) (plainBackup : disk.Plain (backupPath path))
    (upward : disk.Upward path)
    (lasting : ∀ n, Path.fileName? path ≠ some (temporaryName n)) (content : Bytes) :
    (∀ refusals later, atomicWrite path content ⟨disk, refusals⟩ = (.ok (), later) →
      later.disk.held? path = some content) ∧
    (∀ refusals failure later, atomicWrite path content ⟨disk, refusals⟩ = (.error failure, later) →
      later.disk.held? path = disk.held? path) ∧
    ∀ before left, StopsWith (atomicWrite path content) disk before left →
      (left.held? path = disk.held? path ∨ left.held? path = some content) ∧
      ∀ refusals, let restored := (recoverBackup path ⟨left, none :: none :: refusals⟩).2.disk
        restored.held? path = left.held? path ∧
        ((∀ failure, (rename (backupPath path) path ⟨left, refusals⟩).1 ≠ .error failure) →
          restored.file? path = left.held? path) := by
  have storable : Storable path := ⟨extension, lasting⟩
  -- Nothing is said of whether a parked file could be put back before.
  have ready : Ready False path disk := ⟨sound, upward, plain, plainBackup, False.elim⟩
  have ensures := atomicWrite_ensures_ready storable ready content
  refine ⟨?_, ?_, ?_⟩
  · intro refusals later ran
    have written := ensures refusals
    rw [ran] at written
    rw [held?, written.2, Option.some_or]
  · intro refusals failure later ran
    have kept := ensures refusals
    rw [ran] at kept
    exact kept.2
  · intro before left stops
    rcases ensures.stopsWith stops with ⟨-, ready, file⟩ | ⟨ready, held⟩
    · exact ⟨Or.inr (by rw [held?, file, Option.some_or]), recoverBackup_restores storable ready⟩
    · exact ⟨Or.inl held, recoverBackup_restores storable ready⟩

/-- A path with a file and an older one that is still parked. The system refuses to let a file take
the place of another, and the program is stopped when the file has just been parked. -/
theorem atomicWrite_crash_safe_parked :
    let disk : Disk := { tree := ⟨[(["s.json"], .file [1] false), (["s.bak"], .file [7] false)]⟩ }
    let before : List (Option Cause) :=
      [none, none, none, none, none, some .permissionDenied, none, none, none]
    ∃ left, StopsWith (atomicWrite "s.json" [2]) disk before left ∧ left.file? "s.json" = none ∧
      left.held? "s.json" = some [1] ∧
      (recoverBackup "s.json" ⟨left, [none, none]⟩).2.disk.held? "s.json" = some [1] := by
  intro disk before
  have own : disk.leads "s.json" = some (["s.json"], true) := by decide +kernel
  have parked : disk.leads (backupPath "s.json") = some (["s.bak"], true) := by decide +kernel
  have named : Path.fileName? "s.json" = some "s.json" := by decide +kernel
  have lasting : ∀ n, Path.fileName? "s.json" ≠ some (temporaryName n) := by
    intro n same
    obtain ⟨digits, -, -, chars⟩ := toList_temporaryName n
    rw [named] at same
    rw [← Option.some.inj same] at chars
    revert chars
    simp
  obtain ⟨-, -, safe⟩ := atomicWrite_crash_safe (by decide +kernel)
    ⟨Tree.grounded_of_mem (by decide +kernel), rfl⟩ (plain_of_leads own (Or.inr ⟨_, _, rfl⟩))
    (plain_of_leads parked (Or.inr ⟨_, _, rfl⟩))
    (upward_of_not_mem (show ".." ∉ steps "s.json" by decide +kernel) disk) lasting [2]
  have stops : StopsWith (atomicWrite "s.json" [2]) disk before
      { tree := ⟨[(["s.bak"], .file [1] false), ([".tmp000000"], .file [2] false)]⟩ } :=
    ⟨[.busy, .busy, .busy, .busy], [some .busy], by decide, by decide +kernel⟩
  obtain ⟨-, recovery⟩ := safe before _ stops
  have held : Disk.held? { tree := ⟨[(["s.bak"], .file [1] false),
      ([".tmp000000"], .file [2] false)]⟩ } "s.json" = some [1] := by decide +kernel
  exact ⟨_, stops, by decide +kernel, held, (recovery []).1.trans held⟩

/-! ### Where a write is not safe -/

/-- The directory that a write makes for a path can bring up a file that was out of reach, and a
path with the name of a temporary file gets the draft of a write. -/
theorem atomicWrite_not_crash_safe :
    let hidden : Disk := { tree := ⟨[(["y"], .file [1] false)]⟩ }
    (Path.extension? "x/../y" ≠ some "bak" ∧ hidden.Sound ∧ hidden.Plain "x/../y" ∧
      hidden.Plain (backupPath "x/../y") ∧ hidden.held? "x/../y" = none ∧
      let written := atomicWrite "x/../y" [2]
        ⟨hidden, [none, none, none, none, some .permissionDenied]⟩
      written.1.isOk = false ∧ written.2.disk.held? "x/../y" = some [1]) ∧
    Path.extension? ".tmp000000" ≠ some "bak" ∧ Disk.Sound {} ∧ Disk.Plain {} ".tmp000000" ∧
      Disk.Plain {} (backupPath ".tmp000000") ∧ Disk.held? {} ".tmp000000" = none ∧
      ∃ left, StopsWith (atomicWrite ".tmp000000" [2]) {} [none, none, none] left ∧
        left.held? ".tmp000000" = some [] := by
  intro hidden
  have nowhere : hidden.leads "x/../y" = none := by decide +kernel
  have nowhere' : hidden.leads (backupPath "x/../y") = none := by decide +kernel
  have own : ({} : Disk).leads ".tmp000000" = some ([".tmp000000"], true) := by decide +kernel
  have parked : ({} : Disk).leads (backupPath ".tmp000000") =
      some ([".tmp000000.bak"], true) := by decide +kernel
  refine ⟨⟨by decide +kernel, ⟨Tree.grounded_of_mem (by decide +kernel), rfl⟩,
    plain_of_leads_none nowhere, plain_of_leads_none nowhere', by decide +kernel,
    by decide +kernel, by decide +kernel⟩,
    by decide +kernel, ⟨Tree.grounded_of_mem nofun, rfl⟩, plain_of_leads own (Or.inl rfl),
    plain_of_leads parked (Or.inl rfl), by decide +kernel, ?_⟩
  refine ⟨{ tree := ⟨[([".tmp000000"], .file [] false)]⟩ }, ?_, by decide +kernel⟩
  exact ⟨[.busy, .busy, .busy], [some .busy], by decide, by decide +kernel⟩

end StyleMonitor.Session
