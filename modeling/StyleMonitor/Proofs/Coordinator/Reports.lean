import StyleMonitor.Proofs.Analysis.Reports
import StyleMonitor.Proofs.Coordinator.Roots
import StyleMonitor.Proofs.Coordinator.Failures
import StyleMonitor.Proofs.Coordinator.Pulls

/-!
# Whose report a run reads

Runs on different roots go on side by side, and each has a report of its own as long as reports are
named relative to their roots. Then nobody but the container of a run touches its report from the
preparation of the run until the report is read; so what a run that completes publishes are the
findings of what its own container has left.
-/

namespace StyleMonitor.Coordinator

open Disk

variable {setup : Setup} {shared : Shared} {start state middle next gained : State} {event : Event}
  {events before after : List Event} {task total : Nat} {root other : String} {waiters : List Nat}
  {analysis later : Analysis} {findings : FileFindings}

/-! ### Roots that do not overlap -/

/-- No root of the workspace lies within another one, and the record of pulls is kept in memory or
in a file of a directory that lies neither within a root nor above one. -/
structure Setup.Apart (setup : Setup) (pulls : Freshness) : Prop where
  rooted : ∀ root ∈ setup.workspace.roots, Downward root
  unnested : ∀ root ∈ setup.workspace.roots, ∀ other ∈ setup.workspace.roots,
    Path.isWithin root other = true → Path.same root other = true
  record : ∀ path, pulls.path? = some path → ∃ home, LiesIn home path ∧
    ∀ root ∈ setup.workspace.roots, ¬ home <+: steps root ∧ ¬ steps root <+: home

/-- The files are those of a system, no symbolic link stands on the way to a report or to the record
of pulls, and of nothing that is there does the system say that it is not. -/
structure State.Tidy (setup : Setup) (state : State) : Prop where
  sound : state.shared.volume.disk.Sound
  direct : ∀ root ∈ setup.workspace.roots,
    state.shared.volume.disk.tree.Direct (setup.analysis.runner.reportPlace root)
  record : ∀ path home, state.shared.pulls.path? = some path → LiesIn home path →
    state.shared.volume.disk.tree.Direct home
  truthful : some .notFound ∉ state.shared.volume.refusals

/-- Commands change nothing below a root, but for the container of a run on that root. -/
def Confined (setup : Setup) (start : State) (events : List Event) : Prop :=
  ∀ before task reply volume after state root waiters stage,
    events = before ++ .reply task reply volume :: after → run setup start before = some state →
    state.tasks.get? task = some (.drive root waiters (.analyze (.container stage))) →
    ∀ other ∈ setup.workspace.roots, (stage = .run → Path.same other root = false) →
    ∀ place, steps other <+: place →
      volume.disk.tree.lookup place = state.shared.volume.disk.tree.lookup place

theorem Confined.of_append (confined : Confined setup start (before ++ after)) :
    Confined setup start before := by
  intro first task reply volume rest state root waiters stage split
  refine confined first task reply volume (rest ++ after) state root waiters stage ?_
  rw [split]
  simp

/-- What can be read of the report on a root. -/
def Setup.report? (setup : Setup) (root : String) (disk : Disk) : Option Bytes :=
  disk.file? (Container.reportPath setup.analysis.runner disk.currentPath
    (.on setup.analysis.runner root))

/-- Below two roots one of which is not the other there is no common place. -/
theorem Setup.Apart.same_of_common {pulls : Freshness} {place : Place} (apart : setup.Apart pulls)
    (member : root ∈ setup.workspace.roots) (member' : other ∈ setup.workspace.roots)
    (below : steps root <+: place) (below' : steps other <+: place) :
    Path.same other root = true := by
  have rooted := apart.rooted root member
  have rooted' := apart.rooted other member'
  rcases List.prefix_or_prefix_of_prefix below below' with higher | lower
  · exact apart.unnested other member' root member ((rooted'.isWithin_iff rooted).mpr higher)
  · have same := apart.unnested root member other member' ((rooted.isWithin_iff rooted').mpr lower)
    rwa [Path.same_comm]

/-- The record of pulls stays in the file that it is kept in. -/
theorem Reachable.path? (reached : Reachable setup { shared } state) :
    state.shared.pulls.path? = shared.pulls.path? := by
  obtain ⟨events, ran⟩ := reached
  refine run_induction ran rfl ?_
  intro before event middle next came happens ih
  rw [← ih]
  have effect := effect_of_step happens
  generalize next.shared = after at effect
  cases effect with
  | turn found acts => exact Analysis.path?_of_step acts
  | breakOff task =>
    rw [Shared.releaseBy]
    split <;> rfl
  | idle | clearAll | clock | reply | acquire | swap | wipe | release | dispose => rfl

/-- A command that a reply answers is one of a container's run. -/
theorem exists_stage_of_reply {reply : Reply} {volume : Volume}
    (happens : step setup state (.reply task reply volume) = some next) :
    ∃ root waiters stage,
      state.tasks.get? task = some (.drive root waiters (.analyze (.container stage))) := by
  obtain ⟨old, known⟩ := exists_of_actor happens rfl
  cases old with
  | drive root waiters phase =>
    cases stride_of_step happens known rfl with
    | reply _ _ waits =>
      obtain ⟨stage, rfl⟩ := Analysis.exists_stage_of_command waits
      exact ⟨root, waiters, stage, known⟩
  | trigger | timer | toggle | shutdown => simp [step, State.task?, known] at happens

/-! ### Who touches a report -/

section
variable (reached : Reachable setup { shared } state)
  (below : setup.analysis.runner.ReportBelow) (apart : setup.Apart shared.pulls)
  (confined : Confined setup { shared } (before ++ [event]))
  (came : run setup { shared } before = some state) (tidy : state.Tidy setup)
  (tidy' : next.Tidy setup) (happens : step setup state event = some next)
include reached below apart confined came tidy tidy' happens

/-- The report on a root that is being analyzed is touched by the analysis alone: when it is
prepared, and when its container ends. -/
theorem report_kept
    (found : state.tasks.get? task = some (.drive root waiters (.analyze analysis)))
    (calm : event.actor? = some task →
      analysis ≠ .container .prepare ∧ analysis ≠ .container .run) :
    setup.report? root next.shared.volume.disk = setup.report? root state.shared.volume.disk := by
  have member := reached.within task _ root found rfl
  have rooted := apart.rooted root member
  have inside := below.root_prefix root
  have aside : state.shared.pulls.Aside state.shared.volume.disk
      (setup.analysis.runner.reportPlace root) := by
    intro path kept
    obtain ⟨home, lies, free⟩ := apart.record path (reached.path? ▸ kept)
    obtain ⟨above, within⟩ := free root member
    refine ⟨home, lies, tidy.record path home kept lies, fun starts => ?_, fun starts => ?_⟩
    · rcases List.prefix_or_prefix_of_prefix starts inside with higher | lower
      · exact above higher
      · exact within lower
    · exact within (inside.trans starts)
  have same : next.shared.volume.disk.tree.lookup (setup.analysis.runner.reportPlace root) =
      state.shared.volume.disk.tree.lookup (setup.analysis.runner.reportPlace root) := by
    have effect := effect_of_step happens
    generalize next.shared = after at effect
    cases effect with
    | reply other reply volume =>
      obtain ⟨home, others, stage, known⟩ := exists_stage_of_reply happens
      refine confined before other reply volume [] state home others stage rfl came known root
        member (fun runs => ?_) _ inside
      by_contra same
      have same : Path.same root home = true := by simpa using same
      have own := reached.lone_analysis known found same
      rw [own] at known
      cases known.symm.trans found
      exact (calm (congrArg some own)).2 (by rw [runs])
    | @turn other home others earlier _ _ known acts =>
      have member' := reached.within other _ home known rfl
      refine Analysis.lookup_of_step acts below (apart.rooted home member')
        (tidy.direct home member') aside ?_
      rintro prepares common
      have same := apart.same_of_common member member' (inside.trans common)
        (below.root_prefix home)
      have own := reached.lone_analysis found known same
      rw [own] at found
      cases known.symm.trans found
      exact (calm (congrArg some own.symm)).1 prepares
    | breakOff other =>
      rw [Shared.releaseBy]
      split <;> rfl
    | idle | clearAll | clock | acquire | swap | wipe | release | dispose => rfl
  obtain ⟨downward, place⟩ := Container.reportPath_downward below rooted
    state.shared.volume.disk.currentPath
  have direct := tidy.direct root member
  have direct' := tidy'.direct root member
  rw [← place] at direct direct' same
  rw [Setup.report?, Setup.report?, Container.reportPath_eq below rooted _
    state.shared.volume.disk.currentPath]
  exact downward.file?_agree tidy.sound tidy'.sound direct direct' same

end

/-! ### What a run has published -/

/-- The files that a task publishes with an event. -/
def State.publishing (state : State) (task : Nat) : Event → List (String × List Finding)
  | .step actor =>
    match state.tasks.get? task with
    | some (.drive _ _ (.analyze analysis)) => if actor = task then analysis.publishes else []
    | _ => []
  | _ => []

/-- The files that a task publishes in a row of events, in order. -/
def published (setup : Setup) (task : Nat) (state : State) :
    List Event → List (String × List Finding)
  | [] => []
  | event :: rest =>
    state.publishing task event ++ ((step setup state event).map fun next =>
      published setup task next rest).getD []

theorem published_snoc (ran : run setup start before = some middle)
    (happens : step setup middle event = some next) :
    published setup task start (before ++ [event]) =
      published setup task start before ++ middle.publishing task event := by
  induction before generalizing start with
  | nil =>
    cases ran
    simp [published, happens]
  | cons first rest ih =>
    obtain ⟨second, begins, ran⟩ := Option.bind_eq_some_iff.mp ran
    simp only [published, List.cons_append, begins, Option.map_some, Option.getD_some,
      List.append_assoc]
    rw [ih ran]

theorem State.publishing_own
    (found : state.tasks.get? task = some (.drive root waiters (.analyze analysis))) :
    state.publishing task (.step task) = analysis.publishes := by
  simp [publishing, found]

theorem State.publishing_other (other : event.actor? ≠ some task) :
    state.publishing task event = [] := by
  cases event with
  | step actor =>
    have apart : actor ≠ task := fun same => other (congrArg some same)
    simp only [publishing]
    split <;> simp [apart]
  | _ => rfl

/-! ### Where a run stands with its report -/

/-- Since a run of a task on a root was prepared, what can be read of its report has not changed;
and the preparation left nothing to be read, if the system refused no call and takes the path. -/
def Prepared (setup : Setup) (start : State) (task : Nat) (root : String) (waiters : List Nat)
    (events : List Event) (state : State) : Prop :=
  ∃ prior during first cleared, events = prior ++ .step task :: during ∧
    run setup start prior = some first ∧
    first.tasks.get? task = some (.drive root waiters (.analyze (.container .prepare))) ∧
    step setup first (.step task) = some cleared ∧
    setup.report? root state.shared.volume.disk = setup.report? root cleared.shared.volume.disk ∧
    ((∀ cause, some cause ∉ first.shared.volume.refusals) →
      Usable (setup.analysis.runner.reportPathFor root) →
      setup.report? root cleared.shared.volume.disk = none)

/-- The container of a prepared run has ended, and the report is as the container left it. -/
def Left (setup : Setup) (start : State) (task : Nat) (root : String) (waiters : List Nat)
    (events : List Event) (state : State) : Prop :=
  ∃ before reply volume between waiting, events = before ++ .reply task reply volume :: between ∧
    run setup start before = some waiting ∧
    waiting.tasks.get? task = some (.drive root waiters (.analyze (.container .run))) ∧
    Prepared setup start task root waiters before waiting ∧
    setup.report? root state.shared.volume.disk = setup.report? root volume.disk

/-- These are the findings that a run has read in the report that its own container left, under the
exclusions of the root; since then it has come to this state by way of these events. -/
def Gained (setup : Setup) (start : State) (task : Nat) (root : String) (waiters : List Nat)
    (events : List Event) (findings : FileFindings) (gained : State) (after : List Event) : Prop :=
  ∃ before reply volume between waiting reading path exclusions text,
    events = before ++ .reply task reply volume :: between ++ .step task :: after ∧
    run setup start before = some waiting ∧
    waiting.tasks.get? task = some (.drive root waiters (.analyze (.container .run))) ∧
    Prepared setup start task root waiters before waiting ∧
    run setup start (before ++ .reply task reply volume :: between) = some reading ∧
    reading.tasks.get? task = some (.drive root waiters (.analyze (.read path))) ∧
    (Exclusions.load root setup.analysis.ignoreFile reading.shared.volume).1 = .ok exclusions ∧
    Report.HasText (setup.report? root volume.disk) text ∧
    findings = Report.findings exclusions text ∧
    step setup reading (.step task) = some gained

theorem Prepared.snoc (prepared : Prepared setup start task root waiters before middle)
    (same : setup.report? root next.shared.volume.disk =
      setup.report? root middle.shared.volume.disk) :
    Prepared setup start task root waiters (before ++ [event]) next := by
  obtain ⟨prior, during, first, cleared, rfl, came, found, happens, kept, gone⟩ := prepared
  exact ⟨prior, during ++ [event], first, cleared, by simp, came, found, happens,
    same.trans kept, gone⟩

theorem Left.snoc (left : Left setup start task root waiters before middle)
    (same : setup.report? root next.shared.volume.disk =
      setup.report? root middle.shared.volume.disk) :
    Left setup start task root waiters (before ++ [event]) next := by
  obtain ⟨first, reply, volume, between, waiting, rfl, came, found, prepared, kept⟩ := left
  exact ⟨first, reply, volume, between ++ [event], waiting, by simp, came, found, prepared,
    same.trans kept⟩

/-- What a run has published since it read its report. -/
def Shows (setup : Setup) (start : State) (task : Nat) (root : String) (waiters : List Nat)
    (events : List Event) (findings : FileFindings) (files : List (String × List Finding)) : Prop :=
  ∃ gained after, Gained setup start task root waiters events findings gained after ∧
    published setup task gained after = files

theorem Shows.snoc {files : List (String × List Finding)}
    (shows : Shows setup start task root waiters before findings files)
    (ran : run setup start before = some middle) (happens : step setup middle event = some next) :
    Shows setup start task root waiters (before ++ [event]) findings
      (files ++ middle.publishing task event) := by
  obtain ⟨gained, after, ⟨first, reply, volume, between, waiting, reading, path, exclusions, text,
    rfl, came, found, prepared, reads, looks, rules, has, own, gains⟩, rfl⟩ := shows
  refine ⟨gained, after ++ [event], ⟨first, reply, volume, between, waiting, reading, path,
    exclusions, text, by simp, came, found, prepared, reads, looks, rules, has, own, gains⟩, ?_⟩
  exact published_snoc (of_run_append_cons ran reads gains) happens

/-- What is known of a run by the point at which its analysis stands. -/
def Standing (setup : Setup) (start : State) (task : Nat) (root : String) (waiters : List Nat)
    (events : List Event) (state : State) : Analysis → Prop
  | .container (.image _ _) | .container .run =>
    Prepared setup start task root waiters events state
  | .container (.ended _) => False
  | .read path => (∃ current, path = Container.reportPath setup.analysis.runner current
      (.on setup.analysis.runner root)) ∧ Left setup start task root waiters events state
  | .acquire findings | .check findings =>
    Shows setup start task root waiters events findings []
  | .publish rest total => ∃ findings files,
    Shows setup start task root waiters events findings files ∧
      files ++ rest = findings.files ∧ total = findings.totalCount
  | .release outcome | .ended outcome => ∀ total, outcome = .completed total → ∃ findings,
    Shows setup start task root waiters events findings findings.files ∧
      total = findings.totalCount
  | _ => True

/-- What is known of a run stays known while others go on. -/
theorem Standing.snoc_other
    (standing : Standing setup start task root waiters before middle analysis)
    (ran : run setup start before = some middle) (happens : step setup middle event = some next)
    (other : event.actor? ≠ some task)
    (same : setup.report? root next.shared.volume.disk =
      setup.report? root middle.shared.volume.disk) :
    Standing setup start task root waiters (before ++ [event]) next analysis := by
  have shows {findings : FileFindings} {files : List (String × List Finding)}
      (known : Shows setup start task root waiters before findings files) :
      Shows setup start task root waiters (before ++ [event]) findings files := by
    have longer := known.snoc ran happens
    rwa [State.publishing_other other, List.append_nil] at longer
  cases analysis with
  | start | clear | fault | notify => trivial
  | container stage =>
    cases stage with
    | prepare => trivial
    | image | run => exact Prepared.snoc standing same
    | ended => exact standing
  | read path => exact ⟨standing.1, standing.2.snoc same⟩
  | acquire | check => exact shows standing
  | publish =>
    obtain ⟨findings, files, known, rest⟩ := standing
    exact ⟨findings, files, shows known, rest⟩
  | release | ended =>
    intro total completed
    obtain ⟨findings, known, counts⟩ := standing total completed
    exact ⟨findings, shows known, counts⟩

/-- The container's run stands where its report is as it was prepared, or was left. -/
theorem standing_ofStage {stage : Container.Stage}
    (image : (∃ check stage', stage = .image check stage') ∨ stage = .run →
      Prepared setup start task root waiters events state)
    (unprepared : stage ≠ .prepare)
    (ended : ∀ path, stage = .ended (.ok path) → (∃ current, path =
      Container.reportPath setup.analysis.runner current (.on setup.analysis.runner root)) ∧
        Left setup start task root waiters events state) :
    Standing setup start task root waiters events state (.ofStage stage) := by
  cases stage with
  | prepare => exact absurd rfl unprepared
  | image check stage => exact image (Or.inl ⟨check, stage, rfl⟩)
  | run => exact image (Or.inr rfl)
  | ended result =>
    cases result with
    | ok path => exact ended path rfl
    | error why => trivial

section
variable (reached : Reachable setup { shared } state)
  (below : setup.analysis.runner.ReportBelow) (apart : setup.Apart shared.pulls)
  (confined : Confined setup { shared } (before ++ [event]))
  (came : run setup { shared } before = some state) (tidy : state.Tidy setup)
  (tidy' : next.Tidy setup) (happens : step setup state event = some next)
include reached below apart confined came tidy tidy' happens

/-- A step of the analysis itself. -/
theorem standing_of_turn (own : event = .step task) {after : Shared}
    (found : state.tasks.get? task = some (.drive root waiters (.analyze analysis)))
    (acts : analysis.step setup.analysis root task state.shared = some (later, after))
    (turned : next = { state with shared := after }.become task
      (.drive root waiters (.analyze later)))
    (standing : Standing setup { shared } task root waiters before state analysis) :
    Standing setup { shared } task root waiters (before ++ [event]) next later := by
  have member := reached.within task _ root found rfl
  have rooted := apart.rooted root member
  have volume : next.shared.volume = after.volume := by rw [turned]; rfl
  have same (calm : analysis ≠ .container .prepare ∧ analysis ≠ .container .run) :=
    report_kept reached below apart confined came tidy tidy' happens found fun _ => calm
  have shows {findings : FileFindings} {files : List (String × List Finding)}
      (known : Shows setup { shared } task root waiters before findings files) :
      Shows setup { shared } task root waiters (before ++ [event]) findings
        (files ++ analysis.publishes) := by
    have longer := known.snoc came happens
    rwa [own, State.publishing_own found, ← own] at longer
  cases analysis with
  | container stage =>
    have idle : (Analysis.container stage).command? setup.analysis root state.shared = none := by
      cases waits : (Analysis.container stage).command? setup.analysis root state.shared with
      | none => rfl
      | some command => simp [Analysis.step, waits] at acts
    obtain ⟨pulls, following, left, act, advance⟩ := Container.Stage.advance_of_act idle
    rw [Analysis.step_of_act idle act] at acts
    cases acts
    cases advance with
    | refuse => trivial
    | ready =>
      refine ⟨before, [], state, next, by rw [own], came, found, own ▸ happens, rfl, ?_⟩
      intro granted usable
      have direct' := tidy'.direct root member
      have sound' := tidy'.sound
      rw [volume] at direct' sound'
      rw [Setup.report?, volume]
      exact Container.prepare_discards below rooted tidy.sound (tidy.direct root member) sound'
        direct' granted usable act _
    | stale | fresh | recorded | settled =>
      exact Prepared.snoc standing (same ⟨by simp, by simp⟩)
    | stay => exact standing.elim
  | read path =>
    cases Analysis.turn_of_step acts with
    | unreadable => trivial
    | @read _ _ findings last =>
      obtain ⟨⟨current, rfl⟩, first, reply, left, between, waiting, rfl, ran, runs, prepared,
        kept⟩ := standing
      obtain ⟨exclusions, text, rules, has, gains⟩ :=
        Analysis.findings_of_step tidy.truthful acts
      have looks : Container.reportPath setup.analysis.runner current
          (.on setup.analysis.runner root) = Container.reportPath setup.analysis.runner
            state.shared.volume.disk.currentPath (.on setup.analysis.runner root) :=
        Container.reportPath_eq below rooted _ _
      rw [looks] at has
      refine ⟨next, [], ⟨first, reply, left, between, waiting, state, _, exclusions, text,
        by rw [own], ran, runs, prepared, came, found, rules, ?_, gains, own ▸ happens⟩, rfl⟩
      rw [← kept]
      exact has
  | start | clear => cases Analysis.turn_of_step acts <;> first | trivial | rintro _ ⟨⟩
  | acquire findings =>
    cases Analysis.turn_of_step acts
    exact shows standing
  | check findings =>
    cases Analysis.turn_of_step acts with
    | publish => exact ⟨findings, [], shows standing, rfl, rfl⟩
    | drop => rintro _ ⟨⟩
  | publish files total =>
    obtain ⟨findings, done, known, whole, counts⟩ := standing
    cases Analysis.turn_of_step acts with
    | exhibit => exact ⟨findings, _, shows known, by simpa [Analysis.publishes] using whole, counts⟩
    | complete =>
      rintro _ ⟨⟩
      have known := shows known
      simp only [Analysis.publishes, List.append_nil] at known whole
      exact ⟨findings, whole ▸ known, counts⟩
  | release outcome =>
    cases Analysis.turn_of_step acts
    intro total completed
    obtain ⟨findings, known, counts⟩ := standing total completed
    have known := shows known
    simp only [Analysis.publishes, List.append_nil] at known
    exact ⟨findings, known, counts⟩
  | fault | notify => cases Analysis.turn_of_step acts <;> first | trivial | rintro _ ⟨⟩
  | ended => cases acts

/-- The reply to the command of the analysis. -/
theorem standing_of_reply {reply : Reply} {volume : Volume} (own : event = .reply task reply volume)
    (found : state.tasks.get? task = some (.drive root waiters (.analyze analysis)))
    (waits : (analysis.command? setup.analysis root state.shared).isSome)
    (turned : next.shared.volume = volume)
    (standing : Standing setup { shared } task root waiters before state analysis) :
    Standing setup { shared } task root waiters (before ++ [event]) next
      (analysis.afterReply setup.analysis root state.shared reply) := by
  have same (calm : analysis ≠ .container .prepare ∧ analysis ≠ .container .run) :=
    report_kept reached below apart confined came tidy tidy' happens found fun _ => calm
  obtain ⟨stage, rfl⟩ := Analysis.exists_stage_of_command waits
  cases stage with
  | prepare | ended => cases waits
  | image check stage =>
    have prepared : Prepared setup { shared } task root waiters (before ++ [event]) next :=
      Prepared.snoc standing (same ⟨by simp, by simp⟩)
    refine standing_ofStage (fun _ => prepared) ?_ fun path ends => ?_
    · rw [Container.Stage.afterReply]
      cases stage.afterReply setup.analysis.runner reply <;> rintro ⟨⟩
    · exact absurd ends (Container.Stage.ofImage_ne_ended _ _ _)
  | run =>
    refine standing_ofStage ?_ (by rintro ⟨⟩) ?_
    · rintro (⟨_, _, ends⟩ | ends)
      · cases ends
      · rw [Container.Stage.afterReply] at ends
        cases ends
    · intro path ends
      have result : Container.Stage.afterRun setup.analysis.runner
          state.shared.volume.disk.currentPath (.on setup.analysis.runner root) reply =
            .ok path := by
        simpa [Container.Stage.afterReply] using ends
      refine ⟨⟨state.shared.volume.disk.currentPath, ?_⟩, before, reply, volume, [], state,
        by rw [own], came, found, standing, by rw [turned]⟩
      unfold Container.Stage.afterRun at result
      split at result
      · split at result
        · exact (Except.ok.inj result).symm
        · cases result
      · split at result <;> cases result

/-- What is known of every run is known after every event. -/
theorem standing_snoc
    (known : ∀ task root waiters analysis,
      state.tasks.get? task = some (.drive root waiters (.analyze analysis)) →
      Standing setup { shared } task root waiters before state analysis)
    (found : next.tasks.get? task = some (.drive root waiters (.analyze analysis))) :
    Standing setup { shared } task root waiters (before ++ [event]) next analysis := by
  rcases reached.drive_of_next happens found with
    ⟨other, still⟩ | begins | ⟨home, others, _, runs, stride⟩
  · have same := report_kept reached below apart confined came tidy tidy' happens still
      fun mine => absurd mine other
    exact (known task root waiters analysis still).snoc_other came happens other same
  · cases begins
    trivial
  · cases stride with
    | turn acts =>
      cases (State.get?_become runs _).symm.trans found
      exact standing_of_turn reached below apart confined came tidy tidy' happens rfl runs acts rfl
        (known _ _ _ _ runs)
    | reply reply volume waits =>
      cases (State.get?_become runs _).symm.trans found
      exact standing_of_reply reached below apart confined came tidy tidy' happens rfl runs waits
        rfl (known _ _ _ _ runs)
    | again =>
      cases (State.get?_become runs _).symm.trans found
      trivial
    | breakOff | land | deliver | giveUp => cases (State.get?_become runs _).symm.trans found
    | rest | abandon =>
      rw [State.endTask, Tasks.get?_remove, if_pos rfl] at found
      cases found

end

theorem standing_of_run (below : setup.analysis.runner.ReportBelow)
    (apart : setup.Apart shared.pulls) (ran : run setup { shared } events = some state)
    (tidy : Throughout setup { shared } (State.Tidy setup) events)
    (confined : Confined setup { shared } events) :
    ∀ task root waiters analysis,
      state.tasks.get? task = some (.drive root waiters (.analyze analysis)) →
      Standing setup { shared } task root waiters events state analysis := by
  revert tidy confined
  refine run_induction ran (fun _ _ => nofun) ?_
  intro before event middle next came happens ih tidy confined task root waiters analysis found
  obtain ⟨earlier, now⟩ := tidy.of_snoc came
  have last := tidy (before ++ [event]) [] next (by simp) (run_snoc came happens)
  exact standing_snoc ⟨before, came⟩ below apart confined came now last happens
    (ih earlier confined.of_append) found

/-! ### Rows of events that are seen to be tidy and confined -/

/-- Whether the record of pulls is kept in memory, no call is to be refused, and all that stands
somewhere stands in a directory and is no link. -/
def State.isPlain (state : State) : Bool :=
  state.shared.pulls.path?.isNone && state.shared.volume.refusals.isEmpty &&
  state.shared.volume.disk.current.isEmpty &&
  state.shared.volume.disk.tree.nodes.all fun (place, node) =>
    decide (state.shared.volume.disk.tree.lookup place.dropLast = some .directory) &&
    match node with
    | .link _ => false
    | _ => true

theorem State.tidy_of_isPlain (plain : state.isPlain = true) : state.Tidy setup := by
  simp only [isPlain, Bool.and_eq_true, Option.isNone_iff_eq_none, List.isEmpty_iff,
    List.all_eq_true, decide_eq_true_eq] at plain
  obtain ⟨⟨⟨unfiled, granted⟩, home⟩, listed⟩ := plain
  refine ⟨⟨Tree.grounded_of_mem fun entry member => (listed entry member).1, ?_⟩,
    fun root _ => Tree.direct_of_mem (fun entry member target link => ?_) _,
    fun path _ kept => ?_, ?_⟩
  · rw [home, Tree.lookup_root]
  · have solid := (listed entry member).2
    rw [link] at solid
    cases solid
  · rw [unfiled] at kept
    cases kept
  · rw [granted]
    nofun

theorem throughout_tidy
    (all : events.inits.all fun before => (run setup start before).all State.isPlain) :
    Throughout setup start (State.Tidy setup) events := by
  have came : run setup start [] = some start := rfl
  have plain := throughout_of_inits State.isPlain came all
  intro before after middle split ran
  exact State.tidy_of_isPlain (plain before after middle split ran)

/-- What stands at a root and below it. -/
def nodesBelow (root : String) (disk : Disk) : List (Place × Node) :=
  disk.tree.nodes.filter fun entry => (steps root).isPrefixOf entry.1

theorem lookup_nodesBelow {disk : Disk} {place : Place} (inside : steps root <+: place) :
    (nodesBelow root disk).lookup place = disk.tree.nodes.lookup place := by
  rw [nodesBelow]
  induction disk.tree.nodes with
  | nil => rfl
  | cons entry rest ih =>
    by_cases kept : (steps root).isPrefixOf entry.1 = true
    · rw [List.filter_cons_of_pos (by exact kept), List.lookup_cons, List.lookup_cons, ih]
    · have other : (place == entry.1) = false := by
        rw [beq_eq_false_iff_ne]
        rintro rfl
        exact kept (List.isPrefixOf_iff_prefix.mpr inside)
      rw [List.filter_cons_of_neg (by exact kept), List.lookup_cons, other, ih]

theorem lookup_of_nodesBelow {disk volume : Disk} {place : Place} (inside : steps root <+: place)
    (same : nodesBelow root volume = nodesBelow root disk) :
    volume.tree.lookup place = disk.tree.lookup place := by
  rw [Tree.lookup, Tree.lookup, ← lookup_nodesBelow inside, same, lookup_nodesBelow inside]

/-- Whether a command that a reply answers has changed nothing below a root, but for the container
of a run on that root. -/
def State.isModest (setup : Setup) (state : State) : Event → Bool
  | .reply task _ volume =>
    match state.tasks.get? task with
    | some (.drive root _ (.analyze (.container stage))) =>
      setup.workspace.roots.all fun other =>
        decide (nodesBelow other volume.disk = nodesBelow other state.shared.volume.disk) ||
        match stage with
        | .run => Path.same other root
        | _ => false
    | _ => true
  | _ => true

/-- Whether all commands of a row of events are such. -/
def areModest (setup : Setup) (state : State) : List Event → Bool
  | [] => true
  | event :: rest =>
    state.isModest setup event && (step setup state event).all fun next => areModest setup next rest

theorem confined_of_areModest (modest : areModest setup start events = true) :
    Confined setup start events := by
  intro before task reply volume after state root waiters stage split ran found other member foreign
    place inside
  subst split
  induction before generalizing start with
  | nil =>
    cases ran
    have known := (Bool.and_eq_true_iff.mp modest).1
    simp only [State.isModest, found, List.all_eq_true] at known
    refine lookup_of_nodesBelow inside ?_
    have same := known other member
    cases stage with
    | run => simpa [foreign rfl] using same
    | prepare | image | ended => simpa using same
  | cons first rest ih =>
    obtain ⟨second, begins, ran⟩ := Option.bind_eq_some_iff.mp ran
    have known := (Bool.and_eq_true_iff.mp modest).2
    rw [begins] at known
    exact ih ran known

/-! ### Two roots side by side -/

/-- As long as reports are named relative to their roots, whose files do not overlap, what a run
publishes by the time it has completed are the findings of the report that its own container has
left, under the exclusions of the root; its outcome counts them all. The report of an earlier run
was removed before, unless the system refused that, and since then nobody but the container has
touched it, whichever runs on other roots come between. -/
theorem publishes_own_report_if_below (below : setup.analysis.runner.ReportBelow)
    (apart : setup.Apart shared.pulls) (ran : run setup { shared } events = some state)
    (tidy : Throughout setup { shared } (State.Tidy setup) events)
    (confined : Confined setup { shared } events)
    (completed : state.tasks.get? task =
      some (.drive root waiters (.analyze (.ended (.completed total))))) :
    ∃ findings gained after,
      Gained setup { shared } task root waiters events findings gained after ∧
      published setup task gained after = findings.files ∧ total = findings.totalCount := by
  obtain ⟨findings, ⟨gained, after, known, shown⟩, counts⟩ :=
    standing_of_run below apart ran tidy confined task root waiters _ completed total rfl
  exact ⟨findings, gained, after, known, shown, counts⟩

/-- The root, the triggers and the count of an analysis that has completed. -/
def State.completed? (state : State) (task : Nat) : Option (String × List Nat × Nat) :=
  match state.tasks.get? task with
  | some (.drive root waiters (.analyze (.ended (.completed total)))) => some (root, waiters, total)
  | _ => none

theorem State.get?_of_completed? (seen : state.completed? task = some (root, waiters, total)) :
    state.tasks.get? task = some (.drive root waiters (.analyze (.ended (.completed total)))) := by
  unfold completed? at seen
  split at seen
  · next found =>
    cases seen
    exact found
  · cases seen

/-- Two roots, and these files. -/
def besideRoots (files : List (Place × Node)) : Volume :=
  { disk := { tree := ⟨[(["a"], .directory), (["b"], .directory)] ++ files⟩ } }

/-- The image was pulled just now. -/
def pulledNow : State where
  shared :=
    { volume := besideRoots [], pulls := .memory [("lastImagePull", ⟨0⟩)], clock := ⟨0⟩ }

/-- Two roots are analyzed at the same time. The container on the first one ends, then the one on
the other, and the analysis of the first root goes on to its end. -/
def sideBySide (first second : Volume) : List Event :=
  [.trigger "/a", .step 0, .step 0, .step 0, .step 0,
    .trigger "/b", .step 2, .step 2, .step 2, .step 2,
    .step 1, .step 1, .step 1, .step 1, .step 3, .step 3, .step 3, .step 3,
    .reply 1 (.ok {}) first, .reply 3 (.ok {}) second,
    .step 1, .step 1, .step 1, .step 1, .step 1, .step 1]

/-- The directories of the reports on two roots. -/
def ownDirectories : List (Place × Node) :=
  [(["a", ".vscode"], .directory), (["b", ".vscode"], .directory)]

def reportOfA : Place × Node :=
  (["a", ".vscode", "coding-style-reports.log"], .file (Text.encode "x.c:1:MAJOR:C-F3:x\n") false)

def reportOfB : Place × Node :=
  (["b", ".vscode", "coding-style-reports.log"], .file (Text.encode "y.c:2:MINOR:C-G1:y\n") false)

/-- Each container leaves a report of its own. -/
def ownReports : List Event :=
  sideBySide (besideRoots (ownDirectories ++ [reportOfA]))
    (besideRoots (ownDirectories ++ [reportOfA, reportOfB]))

theorem apart_of_roots (roots : setup.workspace.roots = ["/a", "/b"]) :
    setup.Apart pulledNow.shared.pulls where
  rooted := by
    rw [roots]
    have known : ∀ root ∈ ["/a", "/b"], Path.isAbsolute root = true ∧ ".." ∉ steps root := by
      decide +kernel
    exact fun root member => ⟨(known root member).1, (known root member).2⟩
  unnested := by
    rw [roots]
    decide +kernel
  record := nofun

theorem publishes_own_report_if_below_ownReports :
    twoRoots.analysis.runner.ReportBelow ∧ twoRoots.Apart pulledNow.shared.pulls ∧
    Throughout twoRoots pulledNow (State.Tidy twoRoots) ownReports ∧
    Confined twoRoots pulledNow ownReports ∧
    ∃ state, run twoRoots pulledNow ownReports = some state ∧
      state.tasks.get? 1 = some (.drive "/a" [0] (.analyze (.ended (.completed 1)))) ∧
      ∃ findings gained after,
        Gained twoRoots pulledNow 1 "/a" [0] ownReports findings gained after ∧
        findings.totalCount = 1 := by
  have below : twoRoots.analysis.runner.ReportBelow :=
    ⟨by decide +kernel, by decide +kernel, by decide +kernel, by decide +kernel⟩
  have apart : twoRoots.Apart pulledNow.shared.pulls := apart_of_roots rfl
  have tidy : Throughout twoRoots pulledNow (State.Tidy twoRoots) ownReports :=
    throughout_tidy (by decide +kernel)
  have confined : Confined twoRoots pulledNow ownReports :=
    confined_of_areModest (by decide +kernel)
  have ends : (run twoRoots pulledNow ownReports).bind (·.completed? 1) = some ("/a", [0], 1) := by
    decide +kernel
  obtain ⟨state, ran, ended⟩ := Option.bind_eq_some_iff.mp ends
  have completed := State.get?_of_completed? ended
  obtain ⟨findings, gained, after, known, -, counts⟩ :=
    publishes_own_report_if_below below apart ran tidy confined completed
  exact ⟨below, apart, tidy, confined, state, ran, completed, findings, gained, after, known,
    counts.symm⟩

/-- The directory of the reports is one for all roots. -/
def oneDirectory : Setup :=
  { twoRoots with analysis := { runner := { reportDirectory := "/shared" } } }

/-- Only the container on the second root leaves a report. -/
def oneReport : List Event :=
  sideBySide (besideRoots [(["shared"], .directory)])
    (besideRoots [(["shared"], .directory), (["shared", "coding-style-reports.log"],
      .file (Text.encode "y.c:2:MINOR:C-G1:y\n") false)])

/-- The container on the first root replies once. -/
theorem left_of_sideBySide {reply : Reply} {first second volume : Volume} {between : List Event}
    (split : sideBySide first second = before ++ .reply 1 reply volume :: between) :
    volume = first := by
  have member : Event.reply 1 reply volume ∈ sideBySide first second := by
    rw [split]
    exact List.mem_append_right _ List.mem_cons_self
  simp [sideBySide] at member
  exact member.2

/-- With one directory of reports for two roots, a run publishes what the container on the other
root has left, while its own has left nothing. -/
theorem publishes_report_of_other_root : oneDirectory.Apart pulledNow.shared.pulls ∧
    Throughout oneDirectory pulledNow (State.Tidy oneDirectory) oneReport ∧
    Confined oneDirectory pulledNow oneReport ∧
    ∃ state, run oneDirectory pulledNow oneReport = some state ∧
      state.tasks.get? 1 = some (.drive "/a" [0] (.analyze (.ended (.completed 1)))) ∧
      (published oneDirectory 1 pulledNow oneReport).map Prod.fst = ["y.c"] ∧
      ¬ ∃ findings gained after,
        Gained oneDirectory pulledNow 1 "/a" [0] oneReport findings gained after ∧
        1 = findings.totalCount := by
  have ends : (run oneDirectory pulledNow oneReport).bind (·.completed? 1) =
      some ("/a", [0], 1) := by
    decide +kernel
  obtain ⟨state, ran, ended⟩ := Option.bind_eq_some_iff.mp ends
  refine ⟨apart_of_roots rfl, throughout_tidy (by decide +kernel),
    confined_of_areModest (by decide +kernel), state, ran, State.get?_of_completed? ended,
    by decide +kernel, ?_⟩
  rintro ⟨findings, gained, after, known, counts⟩
  obtain ⟨before, reply, volume, between, waiting, reading, path, exclusions, text, split,
    -, -, -, -, -, -, has, rfl, -⟩ := known
  -- There is one reply to the first task, and its container has left nothing.
  rw [List.append_assoc, List.cons_append] at split
  have left := left_of_sideBySide split
  have none : oneDirectory.report? "/a" (besideRoots [(["shared"], .directory)]).disk = none := by
    decide +kernel
  rw [left, none] at has
  have empty : text = "" := has
  have nothing : (Report.findings exclusions "").totalCount = 0 := rfl
  rw [empty, nothing] at counts
  cases counts

end StyleMonitor.Coordinator
