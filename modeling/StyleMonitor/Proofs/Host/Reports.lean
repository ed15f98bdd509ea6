import StyleMonitor.Proofs.Analysis.Reports
import StyleMonitor.Proofs.Disk.Absolute
import StyleMonitor.Proofs.Host.Commands
import StyleMonitor.Report.File

/-!
# No run publishes an old report

A run discards the report of an earlier run before its container is started, by the path of the
directory as it is given, and reads the report by the absolute form of that path. The two lead to
the same file. So what is read was written during the run, unless the old report could not be
deleted: that is only warned about, and the run goes on with the old report in place.
-/

namespace StyleMonitor

open Disk Session

/-! ### Deleting the old report -/

namespace Session

variable {volume : Volume} {directory tail path : String} {failure : Failure}

theorem makeDirectories_sound (path : String) (sound : volume.disk.Sound) :
    (makeDirectories path volume).2.disk.Sound := by
  refine makeDirectories_keeps (fun one two above kept made => ?_) sound path
  obtain ⟨place, leads, missing, puts⟩ := makeDirectory_puts kept made
  exact kept.of_puts puts (Or.inl missing) fun _ => kept.parent leads

/-- A removal is refused, or it does what it says or fails. -/
theorem remove_cases (path : String) (volume : Volume) :
    (∃ cause later, volume.refusals = some cause :: later ∧
      remove path volume = (.error (.refused cause), ⟨volume.disk, later⟩)) ∨
    (∃ after later, volume.disk.remove path = .ok after ∧
      remove path volume = (.ok (), ⟨after, later⟩)) ∨
    ∃ failure later, volume.disk.remove path = .error failure ∧
      remove path volume = (.error failure, ⟨volume.disk, later⟩) := by
  obtain ⟨disk, refusals⟩ := volume
  have granted (later : List (Option Cause)) (refusals : List (Option Cause))
      (taken : remove path ⟨disk, refusals⟩ = match disk.remove path with
        | .ok after => (.ok (), ⟨after, later⟩)
        | .error failure => (.error failure, ⟨disk, later⟩)) :
      (∃ after later, disk.remove path = .ok after ∧
        remove path ⟨disk, refusals⟩ = (.ok (), ⟨after, later⟩)) ∨
      ∃ failure later, disk.remove path = .error failure ∧
        remove path ⟨disk, refusals⟩ = (.error failure, ⟨disk, later⟩) := by
    cases removed : disk.remove path with
    | ok after => exact Or.inl ⟨after, later, rfl, by rw [taken, removed]⟩
    | error failure => exact Or.inr ⟨failure, later, rfl, by rw [taken, removed]⟩
  cases refusals with
  | nil =>
    refine Or.inr (granted [] [] ?_)
    rw [remove, change, call]
    cases disk.remove path <;> rfl
  | cons refusal later =>
    cases refusal with
    | some cause => exact Or.inl ⟨cause, later, rfl, rfl⟩
    | none =>
      refine Or.inr (granted later _ ?_)
      rw [remove, change, call_spared]
      cases disk.remove path <;> rfl

/-- A report that can be read although it was to be deleted: the system has refused that, or the
path of the directory as it is given is too long for it. -/
structure Undeleted (directory tail : String) (volume : Volume) : Prop where
  fails : ∃ failure, (remove (Path.join directory tail) volume).1 = .error failure
  readable : volume.disk.file? (Path.join (volume.disk.absolute directory) tail) ≠ none
  reason : (∃ cause later, volume.refusals = some cause :: later) ∨
    pathLimit ≤ Text.size (Path.join directory tail)

/-- What was to be deleted cannot be read any more, or the deletion has failed. -/
theorem file?_of_discard (sound : volume.disk.Sound) (spelled : volume.disk.Spelled)
    (directory tail : String) :
    (remove (Path.join directory tail) volume).2.disk.file?
        (Path.join (volume.disk.absolute directory) tail) = none ∨
      Undeleted directory tail volume := by
  by_cases missing : volume.disk.file? (Path.join (volume.disk.absolute directory) tail) = none
  · refine Or.inl ?_
    rcases remove_cases (Path.join directory tail) volume with
      ⟨cause, later, -, ran⟩ | ⟨after, later, removed, ran⟩ | ⟨failure, later, -, ran⟩
    · rwa [ran]
    · rw [ran]
      exact file?_of_remove sound spelled removed
    · rwa [ran]
  rcases remove_cases (Path.join directory tail) volume with
    ⟨cause, later, refused, ran⟩ | ⟨after, later, removed, ran⟩ | ⟨failure, later, fails, ran⟩
  · exact Or.inr ⟨⟨_, by rw [ran]⟩, missing, Or.inl ⟨cause, later, refused⟩⟩
  · rw [ran]
    exact Or.inl (file?_of_remove sound spelled removed)
  · refine Or.inr ⟨⟨failure, by rw [ran]⟩, missing, Or.inr ?_⟩
    by_contra short
    obtain ⟨content, file⟩ := Option.ne_none_iff_exists'.mp missing
    obtain ⟨after, removed⟩ := exists_remove_of_file? sound spelled file short
    rw [removed] at fails
    cases fails

end Session

/-- A report that cannot be read has no findings, or is a failure. -/
theorem Report.load_of_unreadable {volume : Volume} {path : String}
    (unreadable : volume.disk.file? path = none) (exclusions : Exclusions) :
    (load exclusions path volume).1 = .ok (.ok .empty) ∨
      ∃ fault, (load exclusions path volume).1 = .ok (.error fault) := by
  obtain ⟨failure, failed⟩ : ∃ failure, (readText path volume).1 = .error failure := by
    rcases readText_outcome path volume with ⟨cause, -, refused⟩ | read
    · exact ⟨_, refused⟩
    · rw [Disk.file?] at unreadable
      cases found : volume.disk.read path with
      | ok content =>
        rw [found] at unreadable
        cases unreadable
      | error failure =>
        rw [found] at read
        exact ⟨failure, read⟩
  rw [load, bind_apply, attempt_apply, failed]
  dsimp only
  split
  · exact Or.inl rfl
  · exact Or.inr ⟨_, rfl⟩

namespace Host

variable {ρ : Type}

/-- Runs the container on a target, and reads the report that it leaves. -/
def runAndRead (runtime : Runtime ρ) (settings : RunnerSettings) (exclusions : Exclusions)
    (target : String) (now : Instant) :
    StateM (Host ρ) (Except Container.Fault (Except Report.ReadFault FileFindings)) := do
  match ← runContainer runtime settings (.on settings target) now with
  | .error fault => return .error fault
  | .ok path => return .ok (← onFiles (.ok .empty) (Report.load exclusions path))

/-- The host after so many steps of a run. -/
def after (runtime : Runtime ρ) (settings : RunnerSettings) (job : Container.Job) (now : Instant)
    (host : Host ρ) (count : Nat) : Host ρ :=
  (repeated (stepRun runtime settings job now) count .prepare host).2

variable {runtime : Runtime ρ} {settings : RunnerSettings} {job : Container.Job} {now : Instant}
  {host later : Host ρ} {path : String}

/-- Nothing that comes after the preparation of a run writes a file at a path: not the record of
pulls, and none of the commands. A run has six steps, of which the first is the preparation. -/
def Unwritten (runtime : Runtime ρ) (settings : RunnerSettings) (job : Container.Job)
    (now : Instant) (host : Host ρ) (path : String) : Prop :=
  ∀ count < 5,
    (host.after runtime settings job now (count + 1)).volume.disk.file? path = none →
    (host.after runtime settings job now (count + 2)).volume.disk.file? path = none

theorem Unwritten.file? (unwritten : Unwritten runtime settings job now host path)
    (begun : (host.after runtime settings job now 1).volume.disk.file? path = none) {count : Nat}
    (within : count ≤ 5) :
    (host.after runtime settings job now (count + 1)).volume.disk.file? path = none := by
  induction count with
  | zero => exact begun
  | succ count ih => exact unwritten count within (ih (by omega))

/-- A run that ends well leaves its report where that is expected. -/
theorem path_of_runContainer (stays : runtime.Stays)
    (ran : runContainer runtime settings job now host = (.ok path, later)) :
    (makeDirectories job.directory host.volume).1 = .ok () ∧
      path = Container.reportPath settings host.volume.disk.currentPath job := by
  rw [runContainer_eq] at ran
  obtain ⟨ends, -⟩ := Prod.mk.inj ran
  cases made : (makeDirectories job.directory host.volume).1 with
  | error failure =>
    rw [execution_refused made] at ends
    cases ends
  | ok =>
  obtain ⟨_, _, last, course⟩ := exists_course runtime settings job now host made
  refine ⟨rfl, ?_⟩
  have yields := course.result
  rw [ends, Disk.currentPath, course.current stays] at yields
  exact yields.eq_reportPath

theorem runAndRead_of_load {exclusions : Exclusions} {target : String}
    {answer : Except Report.ReadFault FileFindings}
    (ran : runContainer runtime settings (.on settings target) now host = (.ok path, later))
    (loads : (Report.load exclusions path later.volume).1 = .ok answer) :
    (runAndRead runtime settings exclusions target now host).1 = .ok answer := by
  rcases loaded : Report.load exclusions path later.volume with ⟨result, volume⟩
  rw [loaded] at loads
  subst loads
  simp only [runAndRead, bind, StateT.bind, ran, onFiles, loaded]
  rfl

/-- A run whose report nobody writes, of which an old report was deleted or cannot be read, fails,
cannot read a report, or finds nothing in it. -/
theorem no_findings_of_old_report (exclusions : Exclusions) (target : String)
    (sound : host.volume.disk.Sound) (spelled : host.volume.disk.Spelled) (stays : runtime.Stays)
    (unwritten : Unwritten runtime settings (.on settings target) now host
      (Container.reportPath settings host.volume.disk.currentPath (.on settings target)))
    (deleted : ¬ Undeleted (settings.reportDirectoryFor target) settings.reportFile
      (makeDirectories (settings.reportDirectoryFor target) host.volume).2) :
    (∃ fault, (runAndRead runtime settings exclusions target now host).1 = .error fault) ∨
    (∃ fault, (runAndRead runtime settings exclusions target now host).1 = .ok (.error fault)) ∨
    (runAndRead runtime settings exclusions target now host).1 = .ok (.ok .empty) := by
  rcases ran : runContainer runtime settings (.on settings target) now host with
    ⟨fault | path, later⟩
  · refine Or.inl ⟨fault, ?_⟩
    simp only [runAndRead, bind, StateT.bind, ran]
    rfl
  obtain ⟨made, rfl⟩ := path_of_runContainer stays ran
  have current : (makeDirectories (settings.reportDirectoryFor target) host.volume).2.disk.current =
      host.volume.disk.current := makeDirectories_stays _ _
  have begun : (host.after runtime settings (.on settings target) now 1).volume =
      (remove (Path.join (settings.reportDirectoryFor target) settings.reportFile)
        (makeDirectories (settings.reportDirectoryFor target) host.volume).2).2 := by
    rw [after, repeated_succ, stepRun_prepare runtime settings now made]
    rfl
  have discarded := (file?_of_discard (makeDirectories_sound _ sound)
    (by rwa [Disk.Spelled, current]) (settings.reportDirectoryFor target)
    settings.reportFile).resolve_right deleted
  rw [Disk.absolute, Disk.currentPath, current] at discarded
  have unreadable := unwritten.file? (by rw [begun]; exact discarded) (Nat.le_refl 5)
  have ended : host.after runtime settings (.on settings target) now 6 = later :=
    congrArg Prod.snd (repeated_of_runContainer ran)
  rw [ended] at unreadable
  rcases Report.load_of_unreadable unreadable exclusions with none | ⟨fault, failed⟩
  · exact Or.inr (Or.inr (runAndRead_of_load ran none))
  · exact Or.inr (Or.inl ⟨fault, runAndRead_of_load ran failed⟩)

/-- A run that discards an old report to which a link leads, and whose container writes nothing. -/
theorem no_findings_of_old_report_linked :
    let quiet : Runtime Unit := fun _ state volume => (.ok {}, state, volume)
    let host : Host Unit :=
      { volume.disk.tree := ⟨[(["w"], .directory), (["v"], .directory),
          (["w", ".vscode"], .link "../v"),
          (["v", "coding-style-reports.log"],
            .file (Text.encode "a.c:1:MAJOR:C-F3\n") false)]⟩, runtime := () }
    Report.findings .empty "a.c:1:MAJOR:C-F3\n" ≠ .empty ∧
      ((∃ fault, (runAndRead quiet {} .empty "w" ⟨0⟩ host).1 = .error fault) ∨
      (∃ fault, (runAndRead quiet {} .empty "w" ⟨0⟩ host).1 = .ok (.error fault)) ∨
      (runAndRead quiet {} .empty "w" ⟨0⟩ host).1 = .ok (.ok .empty)) := by
  intro quiet host
  have sound : host.volume.disk.Sound := ⟨Tree.grounded_of_mem (by decide +kernel), rfl⟩
  have removed : (remove (Path.join (RunnerSettings.reportDirectoryFor {} "w")
      ({} : RunnerSettings).reportFile)
      (makeDirectories (RunnerSettings.reportDirectoryFor {} "w") host.volume).2).1 = .ok () := by
    decide +kernel
  have unwritten : Unwritten quiet {} (.on {} "w") ⟨0⟩ host
      (Container.reportPath {} host.volume.disk.currentPath (.on {} "w")) := by
    unfold Unwritten
    decide +kernel
  refine ⟨by decide +kernel,
    no_findings_of_old_report .empty "w" sound nofun (fun _ _ _ => rfl) unwritten ?_⟩
  rintro ⟨⟨failure, fails⟩, -, -⟩
  cases removed.symm.trans fails

/-- When the system refuses to delete an old report, it is published again, though the container
writes nothing. -/
theorem findings_of_old_report :
    let quiet : Runtime Unit := fun _ state volume => (.ok {}, state, volume)
    let host : Host Unit :=
      { volume := ⟨⟨⟨[(["w"], .directory), (["w", ".vscode"], .directory),
          (["w", ".vscode", "coding-style-reports.log"],
            .file (Text.encode "a.c:1:MAJOR:C-F3\n") false)]⟩, []⟩,
          [none, none, some .permissionDenied]⟩, runtime := () }
    host.volume.disk.Sound ∧ host.volume.disk.Spelled ∧
      (∀ command state volume, (quiet command state volume).2.2 = volume) ∧
      (runAndRead quiet {} .empty "w" ⟨0⟩ host).1 =
        .ok (.ok (Report.findings .empty "a.c:1:MAJOR:C-F3\n")) ∧
      Report.findings .empty "a.c:1:MAJOR:C-F3\n" ≠ .empty := by
  intro quiet host
  refine ⟨⟨Tree.grounded_of_mem (by decide +kernel), rfl⟩, nofun, fun _ _ _ => rfl, ?_, ?_⟩
  · decide +kernel
  · decide +kernel

end Host

end StyleMonitor
