import StyleMonitor.Proofs.Analysis.Faults
import StyleMonitor.Proofs.Disk.Reach
import StyleMonitor.Proofs.Path.Relative

/-!
# What an analysis does to reports

A report whose directory and name are given relative to the root, without `..`, stands below the
root. The preparation of a run removes it and otherwise makes directories on the way to it; the
check of the image keeps to the record of pulls; and reading the report changes nothing. What is
read are the findings of the text that stands at the report's place.
-/

namespace StyleMonitor

namespace Session

variable {disk : Disk} {path : String}

/-- A text is read as the file holds it, unless the system refuses the call. -/
theorem readText_outcome (path : String) (volume : Volume) :
    (∃ cause, some cause ∈ volume.refusals ∧
      (readText path volume).1 = .error (.refused cause)) ∨
    (readText path volume).1 = match volume.disk.read path with
      | .error failure => .error failure
      | .ok content => (Text.decode? content).elim (.error .notText) .ok := by
  obtain ⟨disk, refusals⟩ := volume
  have granted (later : List (Option Cause)) (asked : read path ⟨disk, refusals⟩ =
      (disk.read path, ⟨disk, later⟩)) : (readText path ⟨disk, refusals⟩).1 =
        match disk.read path with
        | .error failure => .error failure
        | .ok content => (Text.decode? content).elim (.error .notText) .ok := by
    rw [readText, bind_apply, asked]
    cases disk.read path with
    | error failure => rfl
    | ok content =>
      dsimp only
      cases Text.decode? content <;> rfl
  cases refusals with
  | nil =>
    refine Or.inr (granted [] ?_)
    rw [read, ask, call]
    cases disk.read path <;> rfl
  | cons refusal later =>
    cases refusal with
    | none => exact Or.inr (granted later (ask_spared _ disk later))
    | some cause => exact Or.inl ⟨cause, List.mem_cons_self, rfl⟩

theorem readText_consumes (path : String) : Consumes (readText path) :=
  .bind (.ask _) fun content => by split <;> first | exact .pure _ | exact .throw _

end Session

namespace Disk

variable {disk : Disk} {first second tail path : String}

/-! ### A file that can be read can be removed -/

/-- A file that can be read by one path can be removed by another one to the same place, if the
system takes that path at all. -/
theorem remove_of_file? {content : Bytes} (sound : disk.Sound) (one : Downward first)
    (two : Downward second) (same : steps first = steps second)
    (relative : Path.isAbsolute tail = false) (down : ".." ∉ steps tail)
    (direct : disk.tree.Direct (steps (Path.join first tail)))
    (usable : Usable (Path.join first tail))
    (file : disk.file? (Path.join second tail) = some content) :
    ∃ other, disk.remove (Path.join first tail) = .ok other := by
  have climbs : steps (Path.join second tail) = steps (Path.join first tail) := by
    rw [steps_join relative, steps_join relative, same]
  obtain ⟨spot, executable, leads, stands, slash⟩ := spot_of_file? file
  have downward := two.join relative down
  have asked : disk.spot false (Path.join second tail) = .ok spot := by
    rw [downward.spot_agree (climbs ▸ direct) (fun _ _ => rfl) false true, leads]
  have named : spot.named = true := by
    by_contra unnamed
    have home := (sound.spot asked).unnamed (by simpa using unnamed)
    rw [stands] at home
    cases home
  -- The path ends in a name, which is one of the tail.
  have ends : EndsIn (names (Path.join second tail)) spot.place :=
    endsIn_of_leads (named ▸ leads_of_spot asked)
  have some : names tail ≠ [] := by
    intro none
    rw [eq_empty_of_names relative none, endsInSlash_join_empty] at slash
    · cases slash
    · rintro rfl
      cases two.rooted
  obtain ⟨name, last, -, fits⟩ := ends
  rw [names_join relative, List.getLast?_append_of_ne_nil _ some] at last
  have proper : ∃ name ∈ names tail, name ≠ "." :=
    ⟨name, List.mem_of_getLast? last, fits.ne_here⟩
  have walks : disk.spot false (Path.join first tail) = .ok spot := by
    have walked := (spot_ok_iff.mp asked).2
    rw [downward.origin, names_join relative, walk_filter _ proper] at walked
    rw [spot_ok_iff, (one.join relative down).origin, names_join relative, walk_filter _ proper]
    exact ⟨usable, (congrArg (fun front => walk _ _ _ _ (front ++ names tail)) same).trans walked⟩
  have named : tail ≠ "" := by
    rintro rfl
    exact some rfl
  rw [endsInSlash_join relative named] at slash
  refine ⟨{ disk with tree := disk.tree.erase spot.place }, ?_⟩
  unfold remove
  rw [walks]
  simp only [bind, Except.bind, stands, endsInSlash_join relative named, slash]
  rfl

end Disk

/-! ### The record of pulls -/

namespace Freshness

open Disk Session

variable {pulls : Freshness} {start disk : Disk} {goal : Place} {key : String}

/-- The path of the file that a record is kept in. -/
def path? : Freshness → Option String
  | memory _ => none
  | file path => some path

/-- A record that is not kept in a file above a place or below it, nor in one that a link leads
to. -/
def Aside (pulls : Freshness) (disk : Disk) (goal : Place) : Prop :=
  ∀ path, pulls.path? = some path → ∃ home, LiesIn home path ∧ disk.tree.Direct home ∧
    ¬ home <+: goal ∧ ¬ goal <+: home

theorem lookup_of_keptTo {home : Place} (kept : KeptTo home start disk) (below : ¬ home <+: goal)
    (above : ¬ goal <+: home) : disk.tree.lookup goal = start.tree.lookup goal :=
  kept.same goal fun either => either.elim above below

theorem last?_ensures (aside : pulls.Aside disk goal) (key : String) :
    Ensures (pulls.last? key) disk
      (fun _ later => later.tree.lookup goal = disk.tree.lookup goal)
      (fun later => later.tree.lookup goal = disk.tree.lookup goal) := by
  cases pulls with
  | memory pulls => exact .pure rfl
  | file path =>
    obtain ⟨home, lies, direct, below, above⟩ := aside path rfl
    refine .bind ((readTable_keptTo lies ⟨direct, .refl _ _⟩).mono ?_ ?_)
    · exact fun table later kept => .pure (lookup_of_keptTo kept below above)
    · exact fun later kept => lookup_of_keptTo kept below above

theorem record_ensures (aside : pulls.Aside disk goal) (key : String) (instant : Instant) :
    Ensures (pulls.record key instant) disk
      (fun _ later => later.tree.lookup goal = disk.tree.lookup goal)
      (fun later => later.tree.lookup goal = disk.tree.lookup goal) := by
  cases pulls with
  | memory pulls => exact .pure rfl
  | file path =>
    obtain ⟨home, lies, direct, below, above⟩ := aside path rfl
    refine .bind ((changeTable_keptTo lies ⟨direct, .refl _ _⟩ _).mono ?_ ?_)
    · exact fun _ later kept => .pure (lookup_of_keptTo kept below above)
    · exact fun later kept => lookup_of_keptTo kept below above

theorem record_path? (pulls : Freshness) (key : String) (instant : Instant) (disk : Disk) :
    Ensures (pulls.record key instant) disk (fun answer _ => answer.path? = pulls.path?)
      (fun _ => True) := by
  cases pulls with
  | memory pulls => exact .pure rfl
  | file path =>
    exact .bind (.always (fun _ _ => .pure rfl) fun _ => trivial)

end Freshness

/-! ### Where reports are -/

namespace RunnerSettings

open Disk

variable {settings : RunnerSettings} {root : String}

/-- The report is named relative to the target, and without turning back. -/
structure ReportBelow (settings : RunnerSettings) : Prop where
  directory : Path.isAbsolute settings.reportDirectory = false
  directoryDown : ".." ∉ steps settings.reportDirectory
  file : Path.isAbsolute settings.reportFile = false
  fileDown : ".." ∉ steps settings.reportFile

/-- The place of the report on a root. -/
def reportPlace (settings : RunnerSettings) (root : String) : Place :=
  steps (settings.reportPathFor root)

theorem ReportBelow.directoryFor (below : settings.ReportBelow) (rooted : Downward root) :
    Downward (settings.reportDirectoryFor root) :=
  rooted.join below.directory below.directoryDown

theorem ReportBelow.pathFor (below : settings.ReportBelow) (rooted : Downward root) :
    Downward (settings.reportPathFor root) :=
  (below.directoryFor rooted).join below.file below.fileDown

theorem ReportBelow.directory_prefix (below : settings.ReportBelow) (root : String) :
    steps (settings.reportDirectoryFor root) <+: settings.reportPlace root := by
  rw [reportPlace, reportPathFor, steps_join below.file]
  exact List.prefix_append _ _

theorem ReportBelow.root_prefix (below : settings.ReportBelow) (root : String) :
    steps root <+: settings.reportPlace root := by
  refine .trans ?_ (below.directory_prefix root)
  rw [reportDirectoryFor, steps_join below.directory]
  exact List.prefix_append _ _

end RunnerSettings

namespace Container

open Disk Session

variable {settings : RunnerSettings} {root : String} {now : Instant} {pulls pulls' : Freshness}
  {disk : Disk} {volume later : Volume} {goal : Place} {check : Image.Check}

theorem steps_absolute {path : String} (current : String) (downward : Downward path) :
    Downward (Path.absolute current path) ∧ steps (Path.absolute current path) = steps path := by
  have same := Path.components_absolute current downward.rooted
  exact ⟨downward.of_components same, by rw [steps_eq, same, ← steps_eq]⟩

/-- Reports are read where they are expected, whatever the current directory. -/
theorem reportPath_downward (below : settings.ReportBelow) (rooted : Downward root)
    (current : String) : Downward (reportPath settings current (.on settings root)) ∧
      steps (reportPath settings current (.on settings root)) = settings.reportPlace root := by
  obtain ⟨downward, same⟩ := steps_absolute current (below.directoryFor rooted)
  refine ⟨downward.join below.file below.fileDown, ?_⟩
  rw [reportPath, steps_join below.file, RunnerSettings.reportPlace, RunnerSettings.reportPathFor,
    steps_join below.file]
  exact congrArg (· ++ _) same

theorem reportPath_eq (below : settings.ReportBelow) (rooted : Downward root)
    (current other : String) : reportPath settings current (.on settings root) =
      reportPath settings other (.on settings root) := by
  have same : Path.absolute current (settings.reportDirectoryFor root) =
      Path.absolute other (settings.reportDirectoryFor root) := by
    simp only [Path.absolute, Path.absolute?, (below.directoryFor rooted).rooted, if_true]
  exact congrArg (Path.join · settings.reportFile) same

/-- A run is prepared by changes on the way to its report only. -/
theorem prepare_ensures (below : settings.ReportBelow) (rooted : Downward root)
    (direct : disk.tree.Direct (settings.reportPlace root)) :
    Ensures (Stage.prepare.act settings (.on settings root) now pulls) disk
      (fun answer later => answer.1 = pulls ∧ SameBut (· <+: settings.reportPlace root) disk later)
      (fun _ => False) := by
  have removal (one : Disk) (grows : Grows (settings.reportPlace root) disk one) (two : Disk)
      (removed : one.remove (settings.reportPathFor root) = .ok two) :
      SameBut (· <+: settings.reportPlace root) disk two := by
    have same := (remove_sameBut (below.pathFor rooted) (unled_of_direct grows.direct) removed).1
    refine grows.same.trans (same.mono ?_)
    rintro _ rfl
    exact List.prefix_rfl
  refine .bind (.attempt ((makeDirectories_grows (below.directoryFor rooted)
    (below.directory_prefix root) direct).mono ?_ ?_))
  · intro _ made grows
    have discarded : Ensures (ignoring (remove (settings.reportPathFor root))) made
        (fun _ => SameBut (· <+: settings.reportPlace root) disk) (fun _ => False) :=
      .ignoring (.change (removal made grows) grows.same)
    refine .bind (discarded.mono ?_ fun _ no => no)
    exact fun _ later same => .pure ⟨rfl, same⟩
  · exact fun later grows failure => .pure ⟨rfl, grows.same⟩

/-- After the preparation of a run no old report can be read, if no call was refused and the system
takes the report's path. -/
theorem prepare_discards (below : settings.ReportBelow) (rooted : Downward root)
    (sound : volume.disk.Sound) (direct : volume.disk.tree.Direct (settings.reportPlace root))
    (sound' : later.disk.Sound) (direct' : later.disk.tree.Direct (settings.reportPlace root))
    (granted : ∀ cause, some cause ∉ volume.refusals)
    (usable : Usable (settings.reportPathFor root))
    (acts : Stage.prepare.act settings (.on settings root) now pulls volume =
      (.ok (pulls', .image check .consult), later)) (current : String) :
    later.disk.file? (reportPath settings current (.on settings root)) = none := by
  obtain ⟨downward, place⟩ := reportPath_downward below rooted current
  have grows := makeDirectories_grows (below.directoryFor rooted) (below.directory_prefix root)
    direct volume.refusals
  have consumed := makeDirectories_consumes (settings.reportDirectoryFor root) volume
  simp only [Stage.act, bind_apply, attempt_apply, Job.on] at acts
  cases made : makeDirectories (settings.reportDirectoryFor root) volume with
  | mk result middle =>
    rw [made] at acts grows consumed
    cases result with
    | error failure => cases acts
    | ok =>
      replace acts : (remove (settings.reportPathFor root) middle).2 = later :=
        congrArg Prod.snd acts
      have sound := grows.sound sound
      have spared : ∀ cause, some cause ∉ middle.refusals :=
        fun cause member => granted cause (consumed.subset member)
      have called : (remove (settings.reportPathFor root) middle).2.disk =
          (middle.disk.remove (settings.reportPathFor root)).toOption.getD middle.disk := by
        obtain ⟨disk, refusals⟩ := middle
        rw [Session.remove, change, call]
        dsimp only
        split
        · next cause rest => exact absurd List.mem_cons_self (spared cause)
        · cases disk.remove (settings.reportPathFor root) <;> rfl
      rw [acts] at called
      rw [Option.eq_none_iff_forall_ne_some]
      intro content file
      cases removed : middle.disk.remove (settings.reportPathFor root) with
      | ok after =>
        rw [removed, Except.toOption, Option.getD_some] at called
        obtain ⟨spot, leads, puts⟩ := remove_puts sound removed
        have there : spot = settings.reportPlace root :=
          (below.pathFor rooted).place (unled_of_direct grows.direct) (spot_of_leads sound leads)
        obtain ⟨executable, stands⟩ := downward.lookup_of_file? sound' (place ▸ direct') file
        rw [place, called, puts.lookup, if_pos there.symm] at stands
        cases stands
      | error failure =>
        rw [removed, Except.toOption, Option.getD_none] at called
        rw [called] at file
        obtain ⟨other, gone⟩ := remove_of_file? sound (below.directoryFor rooted)
          (steps_absolute current (below.directoryFor rooted)).1
          (steps_absolute current (below.directoryFor rooted)).2.symm below.file below.fileDown
          grows.direct usable file
        rw [RunnerSettings.reportPathFor, gone] at removed
        cases removed

/-- The check of the image keeps to the record of pulls. -/
theorem image_ensures (aside : pulls.Aside disk goal) (job : Job) (check : Image.Check)
    (stage : Image.Stage) :
    Ensures ((Stage.image check stage).act settings job now pulls) disk
      (fun _ later => later.tree.lookup goal = disk.tree.lookup goal)
      (fun later => later.tree.lookup goal = disk.tree.lookup goal) := by
  refine .bind ?_
  cases stage with
  | consult =>
    refine .bind ((Freshness.last?_ensures aside check.key).mono ?_ fun _ same => same)
    intro last later same
    cases last with
    | none => exact .pure (.pure same)
    | some last =>
      dsimp only
      split
      · exact .pure (.pure same)
      · exact .pure (.pure same)
  | record =>
    refine .bind (.attempt ((Freshness.record_ensures aside check.key check.now).mono ?_ ?_))
    · exact fun pulls later same => .pure (.pure same)
    · exact fun later same failure => .pure (.pure same)
  | pull | prune | settled => exact .pure (.pure rfl)

/-- A record of pulls stays in the file that it is kept in. -/
theorem act_path? (pulls : Freshness) (job : Job) (stage : Stage) (disk : Disk) :
    Ensures (stage.act settings job now pulls) disk
      (fun answer _ => answer.1.path? = pulls.path?) (fun _ => True) := by
  cases stage with
  | prepare =>
    refine .bind (.always (fun result one => ?_) fun _ => trivial)
    cases result with
    | error failure => exact .pure rfl
    | ok => exact .bind (.always (fun _ _ => .pure rfl) fun _ => trivial)
  | image check stage =>
    refine .bind ?_
    cases stage with
    | consult =>
      refine .bind (.always (fun last one => ?_) fun _ => trivial)
      cases last with
      | none => exact .pure (.pure rfl)
      | some last =>
        dsimp only
        split
        · exact .pure (.pure rfl)
        · exact .pure (.pure rfl)
    | record =>
      refine .bind (.attempt ((Freshness.record_path? pulls check.key check.now disk).mono ?_ ?_))
      · exact fun pulls later same => .pure (.pure same)
      · exact fun later _ failure => .pure (.pure rfl)
    | pull | prune | settled => exact .pure (.pure rfl)
  | run | ended => exact .pure rfl

end Container

/-! ### Reading a report -/

namespace Report

open Session

variable {exclusions : Exclusions} {path : String} {volume later : Volume} {findings : FileFindings}

/-- Whether this is the text of a report with such a content. A report that is not there has the
empty text. -/
def HasText : Option Bytes → String → Prop
  | some content, text => Text.decode? content = some text
  | none, text => text = ""

/-- What a report holds is read, unless the system says of one that is there that it is not. -/
theorem hasText_of_load (truthful : some .notFound ∉ volume.refusals)
    (h : load exclusions path volume = (.ok (.ok findings), later)) :
    ∃ text, HasText (volume.disk.file? path) text ∧ findings = Report.findings exclusions text := by
  rw [load, bind_apply, attempt_apply] at h
  rcases readText_outcome path volume with ⟨cause, member, refused⟩ | read
  · rw [refused] at h
    dsimp only at h
    split at h
    · next missing =>
      have cause : cause = .notFound := by simpa [Failure.isNotFound, Failure.kind] using missing
      exact absurd (cause ▸ member) truthful
    · cases h
  · rw [Disk.file?]
    rw [read] at h
    cases found : volume.disk.read path with
    | error failure =>
      rw [found] at h
      dsimp only at h
      split at h
      · cases h
        exact ⟨"", rfl, rfl⟩
      · cases h
    | ok content =>
      rw [found] at h
      dsimp only at h
      cases decoded : Text.decode? content with
      | none =>
        rw [decoded] at h
        cases h
      | some text =>
        rw [decoded] at h
        cases h
        exact ⟨text, decoded, rfl⟩

end Report

theorem Exclusions.load_volume (root name : String) (volume : Volume) :
    (load root name volume).2.disk = volume.disk ∧
      (load root name volume).2.refusals <:+ volume.refusals := by
  have consumes : Session.Consumes (load root name) := by
    refine .bind (.attempt (Session.readText_consumes _)) fun result => ?_
    cases result with
    | ok text => exact .pure _
    | error failure => exact .pure _
  have keeps : Session.Ensures (load root name) volume.disk (fun _ later => later = volume.disk)
      (fun later => later = volume.disk) := by
    refine .bind (.attempt
      ((Session.readText_ensures fun failure => ?_).mono ?_ fun _ failed => failed))
    · exact .pure rfl
    · exact fun text later same => .pure same
  have same := keeps volume.refusals
  split at same
  · next ran => exact ⟨by rw [ran]; exact same, consumes volume⟩
  · next ran => exact ⟨by rw [ran]; exact same, consumes volume⟩

/-! ### Steps of an analysis -/

namespace Analysis

open Disk Session

variable {setup : AnalysisSetup} {root : String} {task : Nat} {analysis later : Analysis}
  {shared after : Shared} {goal : Place}

theorem onFiles_ensures {α : Type} {session : Session α} {good : α → Disk → Prop}
    {bad : Disk → Prop} (ensures : Ensures session shared.volume.disk good bad) (other : α) :
    ∃ answer volume, onFiles other session shared = (answer, { shared with volume }) ∧
      (good answer volume.disk ∨ answer = other ∧ bad volume.disk) := by
  have h := ensures shared.volume.refusals
  unfold onFiles
  cases ran : session shared.volume with
  | mk result volume =>
    rw [ran] at h
    cases result with
    | ok answer => exact ⟨answer, volume, rfl, Or.inl h⟩
    | error failure => exact ⟨other, volume, rfl, Or.inr ⟨rfl, h⟩⟩

/-- What is shared after a step of the container's run. -/
theorem container_of_step {stage : Container.Stage}
    {good : Freshness × Container.Stage → Disk → Prop} {bad : Disk → Prop}
    (acts : (container stage).step setup root task shared = some (later, after))
    (ensures : Ensures (stage.act setup.runner (.on setup.runner root) shared.clock shared.pulls)
      shared.volume.disk good bad) :
    ∃ answer, later = ofStage answer.2 ∧ after.pulls = answer.1 ∧
      (good answer after.volume.disk ∨ answer = (shared.pulls, stage) ∧ bad after.volume.disk) := by
  simp only [step] at acts
  split at acts
  · cases acts
  · obtain ⟨answer, volume, ran, result⟩ := onFiles_ensures ensures (shared.pulls, stage)
    rw [ran] at acts
    cases acts
    exact ⟨answer, rfl, rfl, result⟩

theorem readReport_volume (setup : AnalysisSetup) (root path : String) (disk : Disk) :
    Ensures (readReport setup root path) disk (fun _ later => later = disk)
      (fun later => later = disk) := by
  refine .bind fun refusals => ?_
  have kept := (Exclusions.load_volume root setup.ignoreFile ⟨disk, refusals⟩).1
  obtain ⟨exclusions, middle, loaded⟩ := load_exclusions root setup.ignoreFile ⟨disk, refusals⟩
  rw [loaded] at kept ⊢
  dsimp only at kept ⊢
  rw [kept]
  refine .bind ?_
  have read : Ensures (Report.load exclusions path) disk (fun _ later => later = disk)
      (fun later => later = disk) := by
    refine .bind (.attempt ((readText_ensures fun failure => ?_).mono ?_ fun _ failed => failed))
    · dsimp only
      split
      · exact .pure rfl
      · exact .pure rfl
    · exact fun text later same => .pure same
  refine read.mono ?_ fun _ same => same
  intro result later same
  cases result with
  | ok findings => exact .pure same
  | error why => exact .pure same

/-- What an analysis reads are the findings of the text of the report, under the exclusions of the
root. Reading changes no file. -/
theorem findings_of_step {path : String} {findings : FileFindings}
    (truthful : some .notFound ∉ shared.volume.refusals)
    (acts : (read path).step setup root task shared = some (acquire findings, after)) :
    ∃ exclusions text, (Exclusions.load root setup.ignoreFile shared.volume).1 = .ok exclusions ∧
      Report.HasText (shared.volume.disk.file? path) text ∧
      findings = Report.findings exclusions text := by
  obtain ⟨exclusions, middle, loaded⟩ := load_exclusions root setup.ignoreFile shared.volume
  obtain ⟨same, left⟩ := Exclusions.load_volume root setup.ignoreFile shared.volume
  rw [loaded] at same left ⊢
  cases read : Report.load exclusions path middle with
  | mk result last =>
    simp only [step, onFiles, readReport, bind_ok loaded, bind_apply, read] at acts
    cases result with
    | error failure => cases acts
    | ok answer =>
      cases answer with
      | error why => cases acts
      | ok found =>
        cases acts
        obtain ⟨text, has, own⟩ :=
          Report.hasText_of_load (fun member => truthful (left.subset member)) read
        exact ⟨exclusions, text, rfl, same ▸ has, own⟩

/-- What stands at a place that is not on the way to the report of the root and has nothing to do
with the record of pulls stays as it is. -/
theorem lookup_of_step (acts : analysis.step setup root task shared = some (later, after))
    (below : setup.runner.ReportBelow) (rooted : Downward root)
    (direct : shared.volume.disk.tree.Direct (setup.runner.reportPlace root))
    (aside : shared.pulls.Aside shared.volume.disk goal)
    (away : analysis = container .prepare → ¬ goal <+: setup.runner.reportPlace root) :
    after.volume.disk.tree.lookup goal = shared.volume.disk.tree.lookup goal := by
  cases analysis with
  | container stage =>
    cases stage with
    | prepare =>
      obtain ⟨answer, -, -, ⟨-, same⟩ | ⟨-, ⟨⟩⟩⟩ :=
        container_of_step acts (Container.prepare_ensures below rooted direct)
      exact same goal (away rfl)
    | image check stage =>
      obtain ⟨answer, -, -, same | ⟨-, same⟩⟩ :=
        container_of_step acts (Container.image_ensures aside _ check stage)
      · exact same
      · exact same
    | run => cases acts
    | ended result =>
      cases acts
      rfl
  | read path =>
    obtain ⟨answer, volume, ran, same⟩ :=
      onFiles_ensures (readReport_volume setup root path shared.volume.disk) (.error "")
    have kept : volume.disk = shared.volume.disk := same.elim id And.right
    simp only [step, ran] at acts
    cases answer with
    | ok findings =>
      cases acts
      rw [kept]
    | error message =>
      cases acts
      rw [kept]
  | _ => cases turn_of_step acts <;> rfl

/-- The record of pulls stays in the file that it is kept in. -/
theorem path?_of_step (acts : analysis.step setup root task shared = some (later, after)) :
    after.pulls.path? = shared.pulls.path? := by
  cases analysis with
  | container stage =>
    obtain ⟨answer, -, pulls, same | ⟨rfl, -⟩⟩ :=
      container_of_step acts (Container.act_path? shared.pulls _ stage _)
    · rw [pulls, same]
    · rw [pulls]
  | _ => cases turn_of_step acts <;> rfl

end Analysis

end StyleMonitor
