import StyleMonitor.Proofs.Disk.CrashSafety
import StyleMonitor.Proofs.Settings.SetEnabled

/-!
# A toggle that is cut off

A toggle may be stopped between any two of its calls, and any of them may be refused. The settings
are then those from before or those from after, unless the file was parked and not put back. Nobody
who reads settings looks for a parked file: the defaults are read, and the next toggle edits an empty
text.
-/

namespace StyleMonitor.Settings

open Toml Disk

variable {path text new : String} {enabled : Bool} {disk left : Disk} {content : Bytes}
  {refusals later : List (Option Cause)}

/-! ### The text that a file counts as -/

/-- Settings are read from this text, and the next toggle edits it. -/
structure Stands (path text : String) (disk : Disk) : Prop where
  reads : ∀ later, (read path ⟨disk, none :: later⟩).1 =
    .ok ((ofText? text).elim (.error (.meaningless path)) .ok)
  edits : ∀ enabled later after,
    setEnabled path enabled ⟨disk, none :: later⟩ = (.ok (.ok ()), after) →
      ∃ new, withEnabled? enabled text = some new ∧
        after.disk.file? path = some (Text.encode new)

/-- The settings file is parked: it counts as an empty one until it is put back. -/
structure Parked (path text : String) (disk : Disk) : Prop where
  missing : disk.file? path = none
  parked : (disk.file? (Session.backupPath path)).bind Text.decode? = some text
  stands : Stands path "" disk
  restored : ∀ later, Stands path text
    (Session.recoverBackup path ⟨disk, none :: none :: none :: later⟩).2.disk

theorem stands_of_fileText {assured : Prop} (storable : Storable path)
    (ready : Ready assured path disk)
    (reads : ∀ later, fileText path ⟨disk, none :: later⟩ = (.ok (.ok text), ⟨disk, later⟩)) :
    Stands path text disk where
  reads later := read_of_fileText (by rw [reads])
  edits enabled later after done := by
    obtain ⟨own, between, new, was, edited, ran⟩ := setEnabled_ok_iff.mp done
    rw [reads] at was
    cases was
    have wrote := Session.atomicWrite_ensures_ready storable ready (Text.encode new) later
    rw [ran] at wrote
    exact ⟨new, edited, wrote.2⟩

/-- A file counts as the text it holds. -/
theorem stands_of_file {assured : Prop} (storable : Storable path)
    (ready : Ready assured path disk) (file : disk.file? path = some content)
    (decoded : Text.decode? content = some text) : Stands path text disk := by
  refine stands_of_fileText storable ready fun later => ?_
  obtain ⟨result, ran, reads⟩ := Session.readText_spared path disk later
  rw [show (disk.read path).toOption = some content from file, Option.bind_some, decoded] at reads
  cases result with
  | error failure => cases reads
  | ok read =>
    cases reads
    rw [fileText, Session.bind_apply, Session.attempt_apply, ran]
    rfl

/-- A file that is missing counts as empty. -/
theorem stands_of_missing {assured : Prop} (storable : Storable path)
    (ready : Ready assured path disk) (clear : disk.Clear path) (missing : disk.file? path = none) :
    Stands path "" disk := by
  refine stands_of_fileText storable ready fun later => ?_
  have read := clear.read_missing ready.sound ready.plain missing
  rw [fileText, Session.bind_apply, Session.attempt_apply, Session.readText, Session.bind_apply,
    Session.read, Session.ask_spared, read]
  rfl

theorem parked_of_file (storable : Storable path) (tended : Tended path disk)
    (missing : disk.file? path = none)
    (parked : disk.file? (Session.backupPath path) = some content)
    (decoded : Text.decode? content = some text) : Parked path text disk where
  missing := missing
  parked := by rw [parked, Option.bind_some, decoded]
  stands := stands_of_missing storable (ready_iff_tended.mpr tended)
    (tended.recoverable (by rw [parked]; nofun)) missing
  restored later := by
    obtain ⟨after, renamed, tendedAfter, file⟩ := tended.recover storable parked
    have own : disk.isThere path = false := by
      rw [isThere_eq tended.sound tended.plain, missing, Option.isSome_none]
    have there : disk.isThere (Session.backupPath path) = true := by
      rw [isThere_eq tended.sound tended.plainBackup, parked, Option.isSome_some]
    rw [Session.recoverBackup_moves own there, Session.rename_spared renamed]
    exact stands_of_file storable (ready_iff_tended.mpr tendedAfter) file decoded

/-! ### What a toggle reads and writes -/

/-- The text that a toggle edits is that of the file, or an empty one if there is none. -/
theorem fileText_told (told : refusals.head? ≠ some (some .notFound))
    (read : (fileText path ⟨disk, refusals⟩).1 = .ok (.ok text)) :
    (disk.file? path).elim (some "") Text.decode? = some text := by
  have asked : (Session.read path ⟨disk, refusals⟩).1 = disk.read path ∨
      ∃ cause, cause ≠ .notFound ∧
        (Session.read path ⟨disk, refusals⟩).1 = .error (.refused cause) := by
    rcases refusals with _ | ⟨_ | cause, later⟩
    · refine Or.inl ?_
      rw [Session.read, Session.ask, Session.call]
      cases disk.read path <;> rfl
    · refine Or.inl ?_
      rw [Session.read, Session.ask_spared]
    · exact Or.inr ⟨cause, by rintro rfl; exact told rfl, rfl⟩
  rw [fileText, Session.bind_apply, Session.attempt_apply, Session.readText, Session.bind_apply]
    at read
  rw [file?]
  rcases ran : Session.read path ⟨disk, refusals⟩ with ⟨answer, volume⟩
  rw [ran] at asked read
  rcases asked with rfl | ⟨cause, apart, rfl⟩
  · cases found : disk.read path with
    | error failure =>
      simp only [found] at read
      split at read
      · cases read
        rfl
      · cases read
    | ok content =>
      simp only [found] at read
      cases decoded : Text.decode? content with
      | none =>
        simp only [decoded] at read
        cases read
      | some own =>
        simp only [decoded] at read
        cases read
        exact decoded
  · have named : (Failure.refused cause).isNotFound = false := by
      cases cause <;> first | rfl | exact absurd rfl apart
    simp only [named] at read
    cases read

/-- A toggle that has read and edited the text writes it. -/
theorem setEnabled_writes {volume between : Volume}
    (reads : fileText path volume = (.ok (.ok text), between))
    (edited : withEnabled? enabled text = some new) : (setEnabled path enabled volume).2 =
      (Session.atomicWrite path (Text.encode new) between).2 := by
  rw [setEnabled, Session.bind_apply, reads]
  simp only [edited, Session.bind_apply, Session.attempt_apply]
  cases (Session.atomicWrite path (Text.encode new) between).1 <;> rfl

/-- A toggle leaves the disk as it is, or it edits the text of the file. Then the file counts as the
new text, or the write has failed and spared what was there. -/
theorem setEnabled_outcomes {assured : Prop} (storable : Storable path)
    (ready : Ready assured path disk) (told : refusals.head? ≠ some (some .notFound)) :
    let left := (setEnabled path enabled ⟨disk, refusals⟩).2.disk
    left = disk ∨ ∃ text new, (disk.file? path).elim (some "") Text.decode? = some text ∧
      withEnabled? enabled text = some new ∧
      (Stands path new left ∨ Ready assured path left ∧ Spares path disk left) := by
  have same := fileText_ensures path disk refusals
  rcases reads : fileText path ⟨disk, refusals⟩ with ⟨failure | fault | text, between⟩
  · rw [reads] at same
    rw [setEnabled, Session.bind_apply, reads]
    exact Or.inl same
  · rw [reads] at same
    rw [setEnabled, Session.bind_apply, reads]
    exact Or.inl same
  · rw [reads] at same
    cases edited : withEnabled? enabled text with
    | none =>
      rw [setEnabled, Session.bind_apply, reads]
      simp only [edited]
      exact Or.inl same
    | some new =>
      refine Or.inr ⟨text, new, fileText_told told (by rw [reads]), edited, ?_⟩
      rw [setEnabled_writes reads edited]
      obtain ⟨now, refusals⟩ := between
      cases same
      have wrote := Session.atomicWrite_ensures_spared storable ready (Text.encode new) refusals
      split at wrote
      · next answer after equal =>
        rw [equal]
        exact Or.inl (stands_of_file storable wrote.1 wrote.2 (Text.decode?_encode new))
      · next failure after equal =>
        rw [equal]
        exact Or.inr wrote

/-! ### Which settings are left -/

/-- Whichever calls of a toggle are refused, and so wherever it is stopped, its file counts as the
old text or as the new one, or it is parked. A file that is no text stays as it is, and one that was
missing is missing or has the new text. -/
theorem setEnabled_crash_safe_unless_parked (storable : Storable path)
    (ready : Ready False path disk) (told : refusals.head? ≠ some (some .notFound)) :
    let left := (setEnabled path enabled ⟨disk, refusals⟩).2.disk
    (∀ content text, disk.file? path = some content → Text.decode? content = some text →
      Stands path text left ∨
      (∃ new, withEnabled? enabled text = some new ∧ Stands path new left) ∨
      Parked path text left) ∧
    (∀ content, disk.file? path = some content → Text.decode? content = none → left = disk) ∧
    (disk.file? path = none → left.file? path = none ∨
      ∃ new, withEnabled? enabled "" = some new ∧ Stands path new left) := by
  intro left
  refine ⟨fun content text file decoded => ?_, fun content file undecoded => ?_, fun missing => ?_⟩
  · -- Where a file is, it can be put back once it is parked.
    have tended : Tended path disk := ⟨ready.sound, ready.upward, ready.plain, ready.plainBackup,
      fun _ => clear_of_file? ready.sound ready.plain file⟩
    have ready := ready_iff_tended.mpr tended
    rcases setEnabled_outcomes storable ready told with same | ⟨own, new, was, edited, outcome⟩
    · rw [show left = disk from same]
      exact Or.inl (stands_of_file storable ready file decoded)
    rw [file, Option.elim_some, decoded] at was
    cases was
    rcases outcome with stands | ⟨readyLeft, spares⟩
    · exact Or.inr (Or.inl ⟨new, edited, stands⟩)
    rcases spares.kept_or_parked file with kept | ⟨missing, parked⟩
    · exact Or.inl (stands_of_file storable readyLeft kept decoded)
    · exact Or.inr (Or.inr
        (parked_of_file storable (ready_iff_tended.mp readyLeft) missing parked decoded))
  · rcases setEnabled_outcomes storable ready told with same | ⟨own, new, was, -⟩
    · exact same
    · rw [file, Option.elim_some, undecoded] at was
      cases was
  · rcases setEnabled_outcomes storable ready told with same | ⟨own, new, was, edited, outcome⟩
    · exact Or.inl (by rw [show left = disk from same, missing])
    rw [missing, Option.elim_none] at was
    cases was
    rcases outcome with stands | ⟨-, spares⟩
    · exact Or.inr ⟨new, edited, stands⟩
    · exact Or.inl (spares.missing missing)

/-- The calls of a toggle in the directory of its file, until the file has just been parked because
the system does not let a file take the place of another. -/
def untilParked : List (Option Cause) :=
  [none, none, none, none, none, none, some .permissionDenied, none, none, none]

/-- A disk with nothing on it but parked settings and the draft of others. -/
def parkedFile (text draft : String) : Disk :=
  { tree := ⟨[(["c.bak"], .file (Text.encode text) false),
    ([".tmp000000"], .file (Text.encode draft) false)]⟩ }

theorem read_parkedFile (text draft : String) :
    (read "c.toml" ⟨parkedFile text draft, [none]⟩).1 = .ok (.ok {}) := by
  have meant : ofText? "" = some {} := by decide +kernel
  have empty : (fileText "c.toml" ⟨parkedFile text draft, [none]⟩).1 = .ok (.ok "") := rfl
  rw [read_of_fileText empty, meant]
  rfl

/-- Settings that differ from the defaults whether analyses are enabled or not. -/
theorem edited_podman :
    let text := "[analysis]\nenabled = false\n\n[runner]\nruntime = \"podman\"\n"
    let new := "[analysis]\nenabled = true\n\n[runner]\nruntime = \"podman\"\n"
    withEnabled? true text = some new ∧
      ofText? text = some { analysis := { enabled := false }, runner := { runtime := "podman" } } ∧
      ofText? new = some { runner := { runtime := "podman" } } := by
  intro text new
  refine ⟨?_, by decide +kernel, by decide +kernel⟩
  simp only [withEnabled?, Document.text, Section.ordered, mergeSort_eq_insertionSort]
  decide +kernel

/-- The calls of a toggle that is stopped then: the three that it still makes come to nothing. -/
def cutOff : List (Option Cause) :=
  untilParked ++ [some .busy, some .busy, some .busy]

/-- A toggle that is stopped when the file has just been parked. -/
theorem setEnabled_crash_safe_unless_parked_podman :
    let text := "[analysis]\nenabled = false\n\n[runner]\nruntime = \"podman\"\n"
    Parked "c.toml" text (setEnabled "c.toml" true ⟨oneFile text, cutOff⟩).2.disk := by
  intro text
  obtain ⟨edited, meant, meantNew⟩ := edited_podman
  have left : (setEnabled "c.toml" true ⟨oneFile text, cutOff⟩).2.disk =
      parkedFile text "[analysis]\nenabled = true\n\n[runner]\nruntime = \"podman\"\n" := by
    rw [cutOff, untilParked, List.cons_append, setEnabled_writes (fileText_spared rfl _) edited]
    decide +kernel
  have told : cutOff.head? ≠ some (some .notFound) := by decide
  obtain ⟨safe, -, -⟩ := @setEnabled_crash_safe_unless_parked _ true _ _ storable_oneFile
    (ready_oneFile text) told
  have outcome := safe _ text rfl (Text.decode?_encode text)
  rw [left] at outcome ⊢
  rcases outcome with stands | ⟨new, edited', stands⟩ | parked
  · have reads := (read_parkedFile _ _).symm.trans (stands.reads [])
    rw [meant] at reads
    exact absurd reads (by decide +kernel)
  · rw [edited] at edited'
    cases edited'
    have reads := (read_parkedFile _ _).symm.trans (stands.reads [])
    rw [meantNew] at reads
    exact absurd reads (by decide +kernel)
  · exact parked

/-- A toggle that is stopped when the file has just been parked: the defaults are read, neither the
settings from before nor those from after, and the next toggle discards both. -/
theorem setEnabled_not_crash_safe :
    let text := "[analysis]\nenabled = false\n\n[runner]\nruntime = \"podman\"\n"
    let new := "[analysis]\nenabled = true\n\n[runner]\nruntime = \"podman\"\n"
    let settings : Settings := { analysis := { enabled := false }, runner := { runtime := "podman" } }
    (read "c.toml" ⟨oneFile text, [none]⟩).1 = .ok (.ok settings) ∧
    withEnabled? true text = some new ∧
    ofText? new = some { settings with analysis := { enabled := true } } ∧
    ∃ left, Session.StopsWith (setEnabled "c.toml" true) (oneFile text) untilParked left ∧
      (read "c.toml" ⟨left, [none]⟩).1 = .ok (.ok {}) ∧
      ∃ later, setEnabled "c.toml" true ⟨left, [none]⟩ = (.ok (.ok ()), later) ∧
        later.disk.file? "c.toml" = some (Text.encode "[analysis]\nenabled = true\n") := by
  intro text new settings
  obtain ⟨edited, meant, meantNew⟩ := edited_podman
  have fresh : withEnabled? true "" = some "[analysis]\nenabled = true\n" := by
    simp only [withEnabled?, Document.text, Section.ordered, mergeSort_eq_insertionSort]
    decide +kernel
  refine ⟨by rw [read_oneFile, meant]; rfl, edited, meantNew, parkedFile text new, ?_,
    read_parkedFile text new, ?_⟩
  · refine ⟨[.busy, .busy, .busy, .busy], [some .busy], by decide, ?_⟩
    rw [untilParked, List.cons_append, setEnabled_writes (fileText_spared rfl _) edited]
    decide +kernel
  · have wrote : Session.atomicWrite "c.toml" (Text.encode "[analysis]\nenabled = true\n")
        ⟨parkedFile text new, []⟩ = (.ok (), ⟨⟨⟨(parkedFile text new).tree.nodes ++
          [(["c.toml"], .file (Text.encode "[analysis]\nenabled = true\n") false)]⟩, []⟩, []⟩) :=
      (show (_ : Except Failure Unit × Volume) = _ by decide +kernel)
    exact ⟨_, setEnabled_ok_iff.mpr ⟨"", _, _, rfl, fresh, wrote⟩, by decide +kernel⟩

end StyleMonitor.Settings
