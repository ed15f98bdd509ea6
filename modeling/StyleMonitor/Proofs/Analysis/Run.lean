import StyleMonitor.Coordinator.Analysis
import StyleMonitor.Proofs.Diagnostics
import StyleMonitor.Proofs.Disk.Session

/-!
# Runs of an analysis

A run takes an analysis from its start to its end, one step at a time. In between its commands are
answered, and others change what analyses share. What a run publishes are the findings of the
report that it read, in whatever order it comes to the files; and while it publishes, nothing else
changes what is shown.
-/

namespace StyleMonitor

/-- A change that others make to what analyses share. Toggles take the lock on publishing, so one
that takes place finds the lock free and is over at once for whoever publishes. -/
inductive Shared.Around : Shared → Shared → Prop where
  /-- Analyses are enabled or disabled, and what is shown is cleared when they are disabled. -/
  | toggle {shared : Shared} (value : Bool) (free : shared.publisher = none) :
    Around shared { shared with
      enabled := value
      shown := if shared.enabled ∧ value = false then shared.shown.clearAll else shared.shown }
  /-- Files, pulls, notes and the time go on. -/
  | elsewhere {shared : Shared} (volume : Volume) (pulls : Freshness) (notes : List String)
    (clock : Instant) : Around shared { shared with volume, pulls, notes, clock }

namespace Shared.Around

variable {shared other : Shared}

theorem shown_sublist (change : shared.Around other) :
    other.shown.files.Sublist shared.shown.files := by
  cases change with
  | toggle value free =>
    dsimp only
    split
    · exact List.nil_sublist _
    · exact List.Sublist.refl _
  | elsewhere volume pulls notes clock => exact List.Sublist.refl _

theorem disposed_eq (change : shared.Around other) :
    other.shown.disposed = shared.shown.disposed := by
  cases change with
  | toggle value free =>
    dsimp only
    split <;> rfl
  | elsewhere volume pulls notes clock => rfl

/-- Nothing is shown while analyses are disabled, whatever others do. -/
theorem quiet (change : shared.Around other)
    (quiet : shared.enabled = false → shared.shown.files = []) :
    other.enabled = false → other.shown.files = [] := by
  cases change with
  | toggle value free =>
    rintro rfl
    cases on : shared.enabled with
    | true => simp [Diagnostics.clearAll]
    | false => simpa using quiet on
  | elsewhere volume pulls notes clock => exact quiet

end Shared.Around

namespace Analysis

/-- The files that the next step of an analysis publishes. -/
def publishes : Analysis → List (String × List Finding)
  | publish (entry :: _) _ => [entry]
  | _ => []

/-- The outcome of an analysis, from the point on at which it is certain. -/
def verdict? : Analysis → Option Outcome
  | publish _ total => some (.completed total)
  | release outcome => some outcome
  | notify message => some (.failed message)
  | ended outcome => some outcome
  | _ => none

/-- A run of an analysis from one point to its end: what it publishes in order, its outcome, and
what is shared at its end. -/
inductive Run (setup : AnalysisSetup) (root : String) (task : Nat) :
    Analysis → Shared → List (String × List Finding) → Outcome → Shared → Prop where
  | ended {outcome : Outcome} {shared : Shared} :
    Run setup root task (ended outcome) shared [] outcome shared
  | step {analysis next : Analysis} {shared after final : Shared}
    {published : List (String × List Finding)} {outcome : Outcome}
    (acts : analysis.step setup root task shared = some (next, after))
    (rest : Run setup root task next after published outcome final) :
    Run setup root task analysis shared (analysis.publishes ++ published) outcome final
  /-- The command that the analysis waits for has ended, and has left the files like this. -/
  | reply {analysis : Analysis} {shared final : Shared} {published : List (String × List Finding)}
    {outcome : Outcome} (reply : Reply) (volume : Volume)
    (waits : (analysis.command? setup root shared).isSome)
    (rest : Run setup root task (analysis.afterReply setup root shared reply)
      { shared with volume } published outcome final) :
    Run setup root task analysis shared published outcome final
  /-- The files of findings come in no particular order. -/
  | reorder {files others : List (String × List Finding)} {total : Nat} {shared final : Shared}
    {published : List (String × List Finding)} {outcome : Outcome} (same : files.Perm others)
    (rest : Run setup root task (publish others total) shared published outcome final) :
    Run setup root task (publish files total) shared published outcome final
  | around {analysis : Analysis} {shared other final : Shared}
    {published : List (String × List Finding)} {outcome : Outcome}
    (unfinished : ∀ outcome, analysis ≠ ended outcome) (change : shared.Around other)
    (rest : Run setup root task analysis other published outcome final) :
    Run setup root task analysis shared published outcome final

variable {setup : AnalysisSetup} {root : String} {task : Nat} {analysis next : Analysis}
  {shared after final : Shared} {published : List (String × List Finding)} {outcome : Outcome}

/-! ### What a step can do -/

/-- The findings of some report, under some exclusions. -/
def Reported (findings : FileFindings) : Prop :=
  ∃ exclusions text, findings = Report.findings exclusions text

/-- The ignore file of a root can be read in some way or other. -/
theorem load_exclusions (root name : String) (volume : Volume) :
    ∃ exclusions later, Exclusions.load root name volume = (.ok exclusions, later) := by
  rw [Exclusions.load, Session.bind_apply, Session.attempt_apply]
  cases (Session.readText (Path.join root name) volume).1 with
  | ok text => exact ⟨_, _, rfl⟩
  | error failure => exact ⟨_, _, rfl⟩

theorem reported_of_load {exclusions : Exclusions} {path : String} {volume later : Volume}
    {findings : FileFindings}
    (h : Report.load exclusions path volume = (.ok (.ok findings), later)) :
    Reported findings := by
  rw [Report.load, Session.bind_apply, Session.attempt_apply] at h
  cases found : (Session.readText path volume).1 with
  | ok text =>
    rw [found] at h
    cases h
    exact ⟨exclusions, text, rfl⟩
  | error failure =>
    rw [found] at h
    by_cases missing : failure.isNotFound = true
    · simp only [missing, if_true] at h
      cases h
      exact ⟨exclusions, "", rfl⟩
    · simp only [missing] at h
      cases h

theorem reported_of_readReport {path : String} {volume later : Volume} {findings : FileFindings}
    (h : readReport setup root path volume = (.ok (.ok findings), later)) : Reported findings := by
  obtain ⟨exclusions, middle, loaded⟩ := load_exclusions root setup.ignoreFile volume
  rw [readReport, Session.bind_ok loaded, Session.bind_apply] at h
  cases read : Report.load exclusions path middle with
  | mk result last =>
    rw [read] at h
    cases result with
    | error failure => cases h
    | ok answer =>
      cases answer with
      | error why => cases h
      | ok found =>
        cases h
        exact reported_of_load read

/-- The ways in which an analysis can go on. -/
inductive Turn (root : String) (task : Nat) : Analysis → Shared → Analysis → Shared → Prop where
  | skip {shared : Shared} (off : shared.enabled = false) :
    Turn root task start shared (ended (.skipped .disabled)) shared
  | enter {shared : Shared} : Turn root task start shared clear shared
  | clear {shared : Shared} : Turn root task clear shared (container .prepare)
    { shared with shown := shared.shown.clearTarget root }
  /-- The container's run goes on, or it has given a report or failed. -/
  | advance {shared : Shared} {stage next : Container.Stage} (volume : Volume)
    (pulls : Freshness) :
    Turn root task (container stage) shared (ofStage next) { shared with volume, pulls }
  | read {shared : Shared} {path : String} {findings : FileFindings} (volume : Volume)
    (reported : Reported findings) :
    Turn root task (read path) shared (acquire findings) { shared with volume }
  | unreadable {shared : Shared} {path message : String} (volume : Volume) :
    Turn root task (.read path) shared (fault message) { shared with volume }
  | acquire {shared : Shared} {findings : FileFindings} :
    Turn root task (acquire findings) shared (check findings)
      { shared with publisher := some task }
  | publish {shared : Shared} {findings : FileFindings} (on : shared.enabled = true) :
    Turn root task (check findings) shared (publish findings.files findings.totalCount) shared
  | drop {shared : Shared} {findings : FileFindings} :
    Turn root task (check findings) shared (release (.skipped .disabled)) shared
  | exhibit {shared : Shared} {path : String} {findings : List Finding}
    {rest : List (String × List Finding)} {total : Nat} :
    Turn root task (.publish ((path, findings) :: rest) total) shared (.publish rest total)
      { shared with shown := shared.shown.update (Path.join root path) findings }
  | complete {shared : Shared} {total : Nat} :
    Turn root task (.publish [] total) shared (release (.completed total)) shared
  | release {shared : Shared} {outcome : Outcome} :
    Turn root task (release outcome) shared (ended outcome) { shared with publisher := none }
  | notify {shared : Shared} {message : String} :
    Turn root task (fault message) shared (notify message) shared
  | hush {shared : Shared} {message : String} :
    Turn root task (fault message) shared (ended (.skipped .disabled)) shared
  | fail {shared : Shared} {message : String} (notes : List String) :
    Turn root task (.notify message) shared (ended (.failed message)) { shared with notes }

theorem onFiles_eq {α : Type} (other : α) (session : Session α) (shared : Shared) :
    ∃ answer volume, onFiles other session shared = (answer, { shared with volume }) := by
  unfold onFiles
  split
  · exact ⟨_, _, rfl⟩
  · exact ⟨_, _, rfl⟩

/-- Every step is one of the listed turns. -/
theorem turn_of_step (acts : analysis.step setup root task shared = some (next, after)) :
    Turn root task analysis shared next after := by
  cases analysis with
  | start =>
    simp only [step] at acts
    cases acts
    cases on : shared.enabled with
    | true => exact .enter
    | false => exact .skip on
  | clear =>
    cases acts
    exact .clear
  | container stage =>
    simp only [step] at acts
    split at acts
    · cases acts
    · obtain ⟨⟨pulls, next⟩, volume, equal⟩ := onFiles_eq (shared.pulls, stage)
        (stage.act setup.runner (.on setup.runner root) shared.clock shared.pulls) shared
      rw [equal] at acts
      cases acts
      exact .advance volume pulls
  | read path =>
    simp only [step, onFiles] at acts
    cases given : readReport setup root path shared.volume with
    | mk result volume =>
      rw [given] at acts
      cases result with
      | error failure =>
        cases acts
        exact .unreadable volume
      | ok answer =>
        cases answer with
        | error why =>
          cases acts
          exact .unreadable volume
        | ok findings =>
          cases acts
          exact .read volume (reported_of_readReport given)
  | acquire findings =>
    simp only [step] at acts
    split at acts
    · cases acts
      exact .acquire
    · cases acts
  | check findings =>
    simp only [step] at acts
    cases acts
    cases on : shared.enabled with
    | true => exact .publish on
    | false => exact .drop
  | publish files total =>
    cases files with
    | nil =>
      cases acts
      exact .complete
    | cons file rest =>
      cases acts
      exact .exhibit
  | release outcome =>
    cases acts
    exact .release
  | fault message =>
    simp only [step] at acts
    cases acts
    cases shared.enabled with
    | true => exact .notify
    | false => exact .hush
  | notify message =>
    cases acts
    exact .fail _
  | ended outcome => cases acts

theorem Turn.enabled_eq (turn : Turn root task analysis shared next after) :
    after.enabled = shared.enabled := by
  cases turn <;> rfl

/-- Only the container waits for commands. -/
theorem exists_stage_of_command (waits : (analysis.command? setup root shared).isSome) :
    ∃ stage, analysis = .container stage := by
  cases analysis with
  | container stage => exact ⟨stage, rfl⟩
  | _ => cases waits

/-! ### Publishing -/

/-- What is shown once the findings of a file are published. -/
def showing (root : String) (shown : Diagnostics) (file : String × List Finding) : Diagnostics :=
  shown.update (Path.join root file.1) file.2

/-- The files that an analysis is yet to publish, from the point on at which that is certain. -/
def left? : Analysis → Option (List (String × List Finding))
  | publish files _ => some files
  | release _ => some []
  | ended _ => some []
  | _ => none

/-- A run with the lock on publishing publishes what is left to publish, and its outcome is
certain. -/
theorem Run.of_left (run : Run setup root task analysis shared published outcome final)
    {files : List (String × List Finding)} (left : analysis.left? = some files)
    (held : shared.publisher = some task ∨ ∃ outcome, analysis = .ended outcome) :
    published.Perm files ∧ analysis.verdict? = some outcome ∧
      final.shown = published.foldl (showing root) shared.shown ∧
      final.enabled = shared.enabled := by
  induction run generalizing files with
  | ended =>
    cases left
    exact ⟨.nil, rfl, rfl, rfl⟩
  | @step analysis next shared after final published outcome acts rest ih =>
    cases turn_of_step acts with
    | exhibit =>
      cases left
      obtain ⟨same, verdict, shown, enabled⟩ := ih rfl (Or.inl (held.resolve_right nofun))
      exact ⟨same.cons _, verdict, shown, enabled⟩
    | complete =>
      cases left
      exact ih rfl (Or.inl (held.resolve_right nofun))
    | release =>
      cases left
      exact ih rfl (Or.inr ⟨_, rfl⟩)
    | _ => cases left
  | reply reply volume waits rest ih =>
    cases ‹Analysis› with
    | container stage => cases left
    | _ => cases waits
  | reorder same rest ih =>
    cases left
    obtain ⟨more, verdict, shown, enabled⟩ := ih rfl (Or.inl (held.resolve_right nofun))
    exact ⟨more.trans same.symm, verdict, shown, enabled⟩
  | around unfinished change rest ih =>
    have holds := held.resolve_right fun ⟨_, last⟩ => unfinished _ last
    cases change with
    | toggle value free =>
      rw [free] at holds
      cases holds
    | elsewhere volume pulls notes clock => exact ih left (Or.inl holds)

/-- Whether what is shown is yet to be cleared. -/
def uncleared : Analysis → Bool
  | start => true
  | clear => true
  | _ => false

/-- What an analysis that has not begun to publish is known by. -/
structure Early (root : String) (task : Nat) (analysis : Analysis) (shared : Shared) : Prop where
  /-- It has nothing that is certain to be published. -/
  undecided : analysis.left? = none
  /-- Nothing is shown while analyses are disabled. -/
  quiet : shared.enabled = false → shared.shown.files = []
  /-- Nothing is shown of the root once that is cleared. -/
  cleared : analysis.uncleared = false →
    ∀ entry ∈ shared.shown.files, Path.isWithin entry.1 root = false
  /-- Its findings are those of a report. -/
  acquires : ∀ findings, analysis = .acquire findings → Reported findings
  /-- So they are when it has taken the lock. -/
  checks : ∀ findings, analysis = .check findings →
    Reported findings ∧ shared.publisher = some task

/-- What a run makes of what is shown: what is not of the root may stay, and what the run publishes
is added. -/
structure Makes (root : String) (shown : Diagnostics) (published : List (String × List Finding))
    (outcome : Outcome) (final : Shared) : Prop where
  quiet : final.enabled = false → final.shown.files = []
  adds : ∃ before : Diagnostics, before.disposed = shown.disposed ∧
    before.files.Sublist shown.files ∧
    (∀ entry ∈ before.files, Path.isWithin entry.1 root = false) ∧
    final.shown = published.foldl (showing root) before
  /-- A run that completes publishes all findings of a report, any other run publishes nothing. -/
  whole : (published = [] ∧ outcome.isCompleted = false) ∨
    ∃ findings, Reported findings ∧ published.Perm findings.files ∧
      outcome = .completed findings.totalCount

theorem Run.makes_of_left (run : Run setup root task analysis shared published outcome final)
    (held : shared.publisher = some task ∨ ∃ outcome, analysis = .ended outcome)
    {files : List (String × List Finding)} (left : analysis.left? = some files)
    (quiet : shared.enabled = false → shared.shown.files = [])
    (outside : ∀ entry ∈ shared.shown.files, Path.isWithin entry.1 root = false)
    (whole : (files = [] ∧ ∀ total, analysis.verdict? ≠ some (.completed total)) ∨
      shared.enabled = true ∧ ∃ findings, Reported findings ∧ findings.files = files ∧
        analysis.verdict? = some (.completed findings.totalCount)) :
    Makes root shared.shown published outcome final := by
  obtain ⟨same, verdict, shown, enabled⟩ := run.of_left left held
  refine ⟨?_, ⟨shared.shown, rfl, List.Sublist.refl _, outside, shown⟩, ?_⟩
  · intro off
    rw [enabled] at off
    rcases whole with ⟨rfl, _⟩ | ⟨on, _⟩
    · rw [shown, same.eq_nil]
      exact quiet off
    · rw [on] at off
      cases off
  · rcases whole with ⟨rfl, failed⟩ | ⟨_, findings, reported, rfl, certain⟩
    · refine Or.inl ⟨same.eq_nil, ?_⟩
      cases outcome with
      | completed total => exact absurd verdict (failed total)
      | _ => rfl
    · rw [verdict] at certain
      exact Or.inr ⟨findings, reported, same, Option.some.inj certain⟩

theorem Makes.mono {shown middle : Diagnostics} (makes : Makes root middle published outcome final)
    (disposed : middle.disposed = shown.disposed) (less : middle.files.Sublist shown.files) :
    Makes root shown published outcome final := by
  obtain ⟨quiet, ⟨before, kept, sub, outside, final⟩, whole⟩ := makes
  exact ⟨quiet, ⟨before, kept.trans disposed, sub.trans less, outside, final⟩, whole⟩

/-- An analysis whose container goes on, or has ended, has not begun to publish. -/
theorem Early.ofStage {stage : Container.Stage} (early : Early root task (container stage) shared)
    (next : Container.Stage) (volume : Volume) (pulls : Freshness) :
    Early root task (ofStage next) { shared with volume, pulls } := by
  have outside := early.cleared rfl
  cases next with
  | ended result =>
    cases result with
    | ok path => exact ⟨rfl, early.quiet, fun _ => outside, nofun, nofun⟩
    | error why => exact ⟨rfl, early.quiet, fun _ => outside, nofun, nofun⟩
  | _ => exact ⟨rfl, early.quiet, fun _ => outside, nofun, nofun⟩

/-- A run that has not begun to publish publishes a report as a whole, or nothing. -/
theorem Run.makes (run : Run setup root task analysis shared published outcome final)
    (early : Early root task analysis shared) :
    Makes root shared.shown published outcome final := by
  induction run with
  | ended => cases early.undecided
  | @step analysis next shared after final published outcome acts rest ih =>
    have outside : analysis.uncleared = false → _ := early.cleared
    cases turn_of_step acts with
    | skip off =>
      refine rest.makes_of_left (Or.inr ⟨_, rfl⟩) rfl early.quiet ?_ (Or.inl ⟨rfl, nofun⟩)
      rw [early.quiet off]
      nofun
    | enter => exact ih ⟨rfl, early.quiet, nofun, nofun, nofun⟩
    | clear =>
      refine (ih ⟨rfl, ?_, ?_, nofun, nofun⟩).mono rfl List.filter_sublist
      · intro off
        simp [Diagnostics.clearTarget, early.quiet off]
      · intro _ entry member
        simpa using (List.mem_filter.mp member).2
    | @advance _ _ next volume pulls => exact ih (early.ofStage next volume pulls)
    | read volume reported =>
      refine ih ⟨rfl, early.quiet, fun _ => outside rfl, ?_, nofun⟩
      intro findings equal
      cases equal
      exact reported
    | unreadable volume => exact ih ⟨rfl, early.quiet, fun _ => outside rfl, nofun, nofun⟩
    | acquire =>
      refine ih ⟨rfl, early.quiet, fun _ => outside rfl, nofun, ?_⟩
      intro findings equal
      cases equal
      exact ⟨early.acquires _ rfl, rfl⟩
    | publish on =>
      obtain ⟨reported, held⟩ := early.checks _ rfl
      exact rest.makes_of_left (Or.inl held) rfl early.quiet (outside rfl)
        (Or.inr ⟨on, _, reported, rfl, rfl⟩)
    | drop =>
      exact rest.makes_of_left (Or.inl (early.checks _ rfl).2) rfl early.quiet (outside rfl)
        (Or.inl ⟨rfl, nofun⟩)
    | notify => exact ih ⟨rfl, early.quiet, fun _ => outside rfl, nofun, nofun⟩
    | hush =>
      exact rest.makes_of_left (Or.inr ⟨_, rfl⟩) rfl early.quiet (outside rfl) (Or.inl ⟨rfl, nofun⟩)
    | fail notes =>
      exact rest.makes_of_left (Or.inr ⟨_, rfl⟩) rfl early.quiet (outside rfl) (Or.inl ⟨rfl, nofun⟩)
    | _ => cases early.undecided
  | @reply analysis _ _ _ _ reply volume waits rest ih =>
    cases analysis with
    | container stage => exact ih (early.ofStage _ volume _)
    | _ => cases waits
  | reorder same rest ih => cases early.undecided
  | @around analysis shared other final published outcome unfinished change rest ih =>
    have sub := change.shown_sublist
    refine (ih ⟨early.undecided, change.quiet early.quiet, ?_, early.acquires, ?_⟩).mono
      change.disposed_eq sub
    · intro cleared entry member
      exact early.cleared cleared entry (sub.mem member)
    · intro findings equal
      obtain ⟨reported, held⟩ := early.checks findings equal
      cases change with
      | toggle value free =>
        rw [free] at held
        cases held
      | elsewhere volume pulls notes clock => exact ⟨reported, held⟩

theorem Run.makes_of_start (run : Run setup root task start shared published outcome final)
    (quiet : shared.enabled = false → shared.shown.files = []) :
    Makes root shared.shown published outcome final :=
  run.makes ⟨rfl, quiet, nofun, nofun, nofun⟩

/-! ### Runs that end well -/

/-- Files can be published in the order in which they come. -/
theorem Run.of_publish (setup : AnalysisSetup) (root : String) (task total : Nat)
    (files : List (String × List Finding)) (shared : Shared) :
    Run setup root task (publish files total) shared files (.completed total)
      { shared with shown := files.foldl (showing root) shared.shown, publisher := none } := by
  induction files generalizing shared with
  | nil => exact .step rfl (.step rfl .ended)
  | cons file rest ih => exact .step rfl (ih _)

/-- An analysis that has read a report completes, as long as analyses are enabled. -/
theorem Run.of_acquire (setup : AnalysisSetup) (root : String) (task : Nat)
    (findings : FileFindings) (on : shared.enabled = true) (free : shared.publisher = none) :
    Run setup root task (acquire findings) shared findings.files (.completed findings.totalCount)
      { shared with shown := findings.files.foldl (showing root) shared.shown } := by
  obtain ⟨enabled, publisher, shown, volume, pulls, notes, clock⟩ := shared
  cases on
  cases free
  exact .step rfl (.step rfl (.of_publish setup root task _ _ _))

/-- What a container that ended well has left as its report is published. -/
theorem Run.of_container (setup : AnalysisSetup) (root : String) (task : Nat)
    {volume later : Volume} {findings : FileFindings} (on : shared.enabled = true)
    (free : shared.publisher = none)
    (report : readReport setup root (Container.reportPath setup.runner
      shared.volume.disk.currentPath (.on setup.runner root)) volume =
        (.ok (.ok findings), later)) :
    Run setup root task (container .run) shared findings.files (.completed findings.totalCount)
      { shared with
        volume := later
        shown := findings.files.foldl (showing root) shared.shown } := by
  have acts : (read (Container.reportPath setup.runner shared.volume.disk.currentPath
      (.on setup.runner root))).step setup root task { shared with volume } =
      some (acquire findings, { shared with volume := later }) := by
    simp only [Analysis.step, onFiles, report]
  exact .reply (.ok {}) volume rfl (.step acts (.of_acquire setup root task findings on free))

/-- The container's run goes on as it does by itself. -/
theorem step_of_act {stage next : Container.Stage} {pulls : Freshness} {volume : Volume}
    (idle : (container stage).command? setup root shared = none)
    (acts : stage.act setup.runner (.on setup.runner root) shared.clock shared.pulls
      shared.volume = (.ok (pulls, next), volume)) :
    (container stage).step setup root task shared =
      some (ofStage next, { shared with volume, pulls }) := by
  simp only [step, idle, onFiles, acts]
  rfl

/-- The findings of a report that can be read, under the exclusions of its root. -/
theorem readReport_of_readText {exclusions : Exclusions} {path text : String}
    {volume middle later : Volume}
    (rules : Exclusions.load root setup.ignoreFile volume = (.ok exclusions, middle))
    (report : Session.readText path middle = (.ok text, later)) :
    readReport setup root path volume = (.ok (.ok (Report.findings exclusions text)), later) := by
  have found : Report.load exclusions path middle =
      (.ok (.ok (Report.findings exclusions text)), later) := by
    rw [Report.load, Session.bind_apply, Session.attempt_apply, report]
    rfl
  rw [readReport, Session.bind_ok rules, Session.bind_ok found]
  rfl

end Analysis

end StyleMonitor
